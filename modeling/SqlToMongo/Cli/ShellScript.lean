import SqlToMongo.Cli.Command

/-!
# Scripts for shells

What a shell runs to complete command lines: it asks the program how the last word can go on, and
leaves out the last line of the answer, which begins with a colon.
-/

namespace SqlToMongo.Cli

/-- The lines of the script for a shell; `request` is the command that it asks. -/
def scriptLines (request : String) : Shell → List String
  | .bash =>
    ["_sql2mongo() \x7b",
     "    local line",
     "    COMPREPLY=()",
     "    while IFS= read -r line; do",
     "        [[ $line == :* ]] || COMPREPLY+=(\"$\x7bline%%$'\\t'*\x7d\")",
     "    done < <(\"$\x7bCOMP_WORDS[0]\x7d\" " ++ request ++
       " \"$\x7bCOMP_WORDS[@]:1:COMP_CWORD\x7d\" 2>/dev/null)",
     "\x7d",
     "complete -o default -F _sql2mongo sql2mongo"]
  | .fish =>
    ["function __sql2mongo_choices",
     "    sql2mongo " ++ request ++ " (commandline -opc)[2..] (commandline -ct) 2>/dev/null" ++
       " | string match -rv '^:'",
     "end",
     "complete -c sql2mongo -a '(__sql2mongo_choices)'"]
  | .powershell =>
    ["Register-ArgumentCompleter -Native -CommandName 'sql2mongo' -ScriptBlock \x7b",
     "    param($word, $line, $position)",
     "    $words = @($line.CommandElements | Select-Object -Skip 1 | ForEach-Object \x7b \"$_\" \x7d)",
     "    if ($word -eq '') \x7b $words += '' \x7d",
     "    & sql2mongo " ++ request ++ " @words 2>$null | Where-Object \x7b $_ -notlike ':*' \x7d |",
     "        ForEach-Object \x7b ($_ -split \"`t\")[0] \x7d",
     "\x7d"]
  | .zsh =>
    ["#compdef sql2mongo",
     "compdef _sql2mongo sql2mongo",
     "_sql2mongo() \x7b",
     "    local line",
     "    local -a choices",
     "    for line in \"$\x7b(@f)$(sql2mongo " ++ request ++
       " \"$\x7b(@)words[2,CURRENT]\x7d\" 2>/dev/null)\x7d\"; do",
     "        [[ $line == :* ]] || choices+=(\"$\x7bline/$'\\t'/:\x7d\")",
     "    done",
     "    _describe 'sql2mongo' choices",
     "\x7d"]

/-- The script for a shell, with or without what the words mean. -/
def script (shell : Shell) (described : Bool) : String :=
  String.join ((scriptLines (Command.complete described).name shell).map (· ++ "\n"))

end SqlToMongo.Cli
