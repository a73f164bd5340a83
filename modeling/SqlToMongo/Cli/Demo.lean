import SqlToMongo.Converter.Basic
import SqlToMongo.Files.Basic
import SqlToMongo.Yaml.Document
import SqlToMongo.Yaml.Meaning

/-!
# The demonstration

Statements with names, converted one after the other. There is a list of them, and a file can bring
another.
-/

namespace SqlToMongo.Cli

structure DemoCase where
  name : String
  sql : String
  deriving DecidableEq, Repr

namespace Demo

/-- The statements that come with the program. -/
def samples : List DemoCase :=
  [⟨"SELECT", "SELECT * FROM usuarios"⟩,
   ⟨"SELECT", "SELECT nome, email FROM clientes WHERE id = 123"⟩,
   ⟨"SELECT", "SELECT produto, preco FROM itens WHERE preco > 100 ORDER BY preco DESC"⟩,
   ⟨"SELECT", "SELECT * FROM clientes LIMIT 10"⟩,
   ⟨"SELECT", "SELECT * FROM logs WHERE data BETWEEN '2023-01-01' AND '2023-12-31'"⟩,
   ⟨"SELECT", "SELECT * FROM produtos WHERE preco > 50 AND estoque < 10"⟩,
   ⟨"SELECT", "SELECT COUNT(*) as total FROM clientes"⟩,
   ⟨"SELECT", "SELECT departamento, AVG(salario) as media_salarial FROM funcionarios GROUP BY departamento"⟩,
   ⟨"SELECT", "SELECT nome, email as endereco_email FROM usuarios"⟩,
   ⟨"INSERT", "INSERT INTO produtos (id, nome, preco) VALUES (1, 'Camiseta', 29.90)"⟩,
   ⟨"INSERT", "INSERT INTO clientes (id, nome, email) VALUES (100, 'Maria Silva', 'maria@exemplo.com')"⟩,
   ⟨"INSERT", "INSERT INTO logs (mensagem, nivel, data) VALUES ('Erro ao conectar', 'error', NOW())"⟩,
   ⟨"UPDATE", "UPDATE produtos SET preco = 39.90 WHERE id = 1"⟩,
   ⟨"UPDATE", "UPDATE clientes SET ativo = false WHERE ultimo_acesso < '2022-01-01'"⟩,
   ⟨"UPDATE", "UPDATE estoque SET quantidade = quantidade - 1 WHERE produto_id = 5"⟩,
   ⟨"DELETE", "DELETE FROM sessões WHERE expiracao < NOW()"⟩,
   ⟨"DELETE", "DELETE FROM clientes WHERE id = 42"⟩]

/-! ### Files -/

/-- Why a file has no statements for us. -/
inductive Error where
  | unreadable (path cause : String)
  | unparsable (path : String)
  | missingStatement (path : String) (number : Nat)
  deriving DecidableEq, Repr

/-- The message; `cause` is what the reader of the text says. -/
def Error.message (cause : String) : Error → String
  | .unreadable path cause => "failed to read " ++ path ++ ": " ++ cause
  | .unparsable path => "failed to parse " ++ path ++ ": " ++ cause
  | .missingStatement path number => path ++ ": case " ++ toString number ++ " has no sql"

/-- The text of an entry: the first one with its name. Nothing and null are no text. -/
def entryText? (entries : List (String × Yaml)) (name : String) : Option String :=
  match entries.lookup name with
  | none => some ""
  | some node => node.scalarText?.map (·.getD "")

/-- A case of a file; other entries do not matter. Null is no case at all. -/
def case? (node : Yaml) : Option (Option DemoCase) :=
  match node.entries? with
  | some entries => do
    let named ← entries.mapM fun (key, value) => do return (← key.scalarText?).map (·, value)
    let named := named.filterMap id
    return some ⟨← entryText? named "name", ← entryText? named "sql"⟩
  | none => if node.scalarText? = some none then some none else none

/-- The cases of a document. -/
def cases? (node : Yaml) : Option (List DemoCase) :=
  match node with
  | .sequence items => (items.mapM case?).map (·.filterMap id)
  | node => if node.scalarText? = some none then some [] else none

/-- The cases of a file; each has a statement. -/
def read (files : Files) (path : String) : Except Error (List DemoCase) :=
  match files.read path with
  | .error cause => .error (.unreadable path cause)
  | .ok text =>
    match (Yaml.read? text).bind cases? with
    | none => .error (.unparsable path)
    | some cases =>
      match cases.findIdx? (·.sql == "") with
      | some i => .error (.missingStatement path (i + 1))
      | none => .ok cases

/-! ### Running -/

/-- The text about one case, and whether it failed; `time` is how many milliseconds it took. -/
def report (time : String) (c : Converter) (case : DemoCase) : String × Bool :=
  let title := "== " ++ (if case.name = "" then "Test" else case.name) ++ "\nSQL: " ++ case.sql ++ "\n"
  match c.convert case.sql with
  | (.ok output, _) => (title ++ "MongoDB: (converted in " ++ time ++ "ms)\n" ++ output ++ "\n\n", false)
  | (.error e, _) => (title ++ "Error: " ++ e.message ++ "\n\n", true)

/-- Converts all cases: the text, and the number of failures. -/
def run (time : String) (c : Converter) (cases : List DemoCase) : String × Nat :=
  let reports := cases.map (report time c)
  let failed := reports.countP (·.2)
  (String.join (reports.map (·.1)) ++ "Done: " ++ toString (cases.length - failed) ++
    " converted, " ++ toString failed ++ " failed\n", failed)

end Demo

end SqlToMongo.Cli
