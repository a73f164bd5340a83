import Mathlib
import SqlToMongo.Proofs.Converter.Runs

/-!
# Unknown formats

A converter looks at what it keeps before it looks at the name of the format. The text behind a key
joins the name and the statement with `:sql:`, which may occur in both. So a name that continues a
known one with `:sql:` and the front of a statement can have the key of a conversion that is kept.
Nothing else gets past the check of the name.

## Main results

`disguised_iff`: which names share a key text with a conversion in a known format.
`rejects_iff`: an unknown name is refused after every run exactly when it is not one of them, or
when nothing is kept.
-/

namespace SqlToMongo

open Cache Mongo Sql

/-! ### Names that share a key text -/

/-- A name made of a known one and the front of a statement that compiles, the rest of which is
asked for. -/
def Disguised (name sql : String) : Prop :=
  ∃ (format : Format) (front other : String) (command : Command),
    name = format.name ++ ":sql:" ++ front ∧
    normalize other.toList = front.toList ++ ":sql:".toList ++ normalize sql.toList ∧
    Statement.compile other = .ok command

theorem colon_notMem_name (format : Format) : ':' ∉ format.name.toList := by
  cases format <;> decide

theorem exists_format {name : String} (known : name ∈ knownFormats) (sql : String) :
    ∃ format : Format, Format.ofName name = .ok format ∧
      keyText name sql = keyText format.name sql := by
  simp only [knownFormats, List.mem_cons, List.not_mem_nil, or_false] at known
  rcases known with rfl | rfl | rfl
  · exact ⟨.shell, rfl, rfl⟩
  · exact ⟨.shell, rfl, rfl⟩
  · exact ⟨.command, rfl, rfl⟩

theorem toList_keyText {name : String} (named : name ≠ "") (sql : String) :
    (keyText name sql).toList =
      "fmt:".toList ++ (name.toList ++ (":sql:".toList ++ normalize sql.toList)) := by
  simp [keyText, named, List.append_assoc]

/-- Where a separator can stand in a text that has one behind a name without colons: at the same
place, inside the rest, or over the end of the first. -/
theorem split_at_separator {known name body rest : List Char} (plain : ':' ∉ known)
    (same : known ++ (":sql:".toList ++ body) = name ++ (":sql:".toList ++ rest)) :
    name = known ∨ body = "sql:".toList ++ rest ∨
      ∃ front, name = known ++ ":sql:".toList ++ front ∧
        body = front ++ ":sql:".toList ++ rest := by
  rcases List.append_eq_append_iff.mp same with ⟨more, rfl, inner⟩ | ⟨cut, rfl, inner⟩
  · rcases List.append_eq_append_iff.mp inner with ⟨front, rfl, rest⟩ | ⟨tail, whole, inner⟩
    · exact .inr (.inr ⟨front, by simp, by simpa using rest⟩)
    · -- The name ends inside the first separator, which starts with the second only at its end.
      have separator : ":sql:".toList = [':', 's', 'q', 'l', ':'] := rfl
      simp only [separator, List.cons_eq_append_iff, List.nil_eq_append_iff] at whole
      rcases whole with ⟨rfl, rfl⟩ | ⟨_, rfl, ⟨rfl, rfl⟩ | ⟨_, rfl, ⟨rfl, rfl⟩ | ⟨_, rfl,
        ⟨rfl, rfl⟩ | ⟨_, rfl, ⟨rfl, rfl⟩ | ⟨_, rfl, rfl, rfl⟩⟩⟩⟩⟩
      · exact .inl (by simp)
      · simp at inner
      · simp at inner
      · simp at inner
      · exact .inr (.inl (by simpa using inner.symm))
      · exact .inr (.inr ⟨[], by simp, by simpa using inner.symm⟩)
  · cases cut with
    | nil => exact .inl (by simp)
    | cons c cut =>
      obtain rfl : ':' = c := by simpa using congrArg List.head? inner
      simp at plain

/-- No statement starts with `sql:`. -/
theorem compile_ne_ok_of_separator {sql : String} {rest : List Char}
    (layout : normalize sql.toList = "sql:".toList ++ rest) (command : Command) :
    Statement.compile sql ≠ .ok command := by
  have kind : Statement.kind? (normalize sql.toList) = none := by
    have front : ∃ more, Text.lowerAll ((normalize sql.toList).take 6) = 's' :: 'q' :: more := by
      rw [layout]
      exact ⟨_, rfl⟩
    obtain ⟨more, front⟩ := front
    rw [Statement.kind?, front]
    split <;> rename_i named
    all_goals first
      | rfl
      | exact absurd (congrArg String.toList named) (by simp)
  simp [Statement.compile, kind]

/-- An unknown name shares a key text with a conversion in a known format exactly when it is
disguised. -/
theorem disguised_iff {name : String} (unknown : name ∉ knownFormats) (sql : String) :
    Disguised name sql ↔ ∃ other known command, known ∈ knownFormats ∧
      Statement.compile other = .ok command ∧ keyText known other = keyText name sql := by
  have named : name ≠ "" := fun empty => unknown (by simp [knownFormats, empty])
  constructor
  · rintro ⟨format, front, other, command, rfl, layout, compiled⟩
    refine ⟨other, format.name, command, Converter.name_mem_knownFormats format, compiled, ?_⟩
    apply String.toList_injective
    rw [toList_keyText (by cases format <;> decide), toList_keyText named, layout]
    simp
  · rintro ⟨other, known, command, isKnown, compiled, same⟩
    obtain ⟨format, -, shown⟩ := exists_format isKnown other
    rw [shown] at same
    have chars := congrArg String.toList same
    rw [toList_keyText (by cases format <;> decide), toList_keyText named,
      List.append_cancel_left_eq] at chars
    rcases split_at_separator (colon_notMem_name format) chars with
      equal | inside | ⟨front, equal, layout⟩
    · exact absurd (String.toList_injective equal ▸ Converter.name_mem_knownFormats format) unknown
    · exact absurd compiled (compile_ne_ok_of_separator inside command)
    · refine ⟨format, String.ofList front, other, command, ?_, by simpa using layout, compiled⟩
      apply String.toList_injective
      simpa using equal

/-! ### What is kept -/

theorem convert_of_unknown {name : String} (unknown : name ∉ knownFormats) (sql : String) :
    ∃ e, convert sql name = .error e := by
  cases compiled : Statement.compile sql with
  | error e => exact ⟨_, convert_of_refused compiled name⟩
  | ok command =>
    refine ⟨.unknownFormat name, ?_⟩
    simp only [knownFormats, List.mem_cons, List.not_mem_nil, or_false, not_or] at unknown
    rw [convert_of_compiled compiled, render, Format.ofName, if_neg (by simp [unknown]),
      if_neg unknown.2.2]
    rfl

theorem convert_of_known {name : String} (known : name ∈ knownFormats) {sql : String}
    {command : Command} (compiled : Statement.compile sql = .ok command) :
    ∃ text, convert sql name = .ok text := by
  obtain ⟨format, found, -⟩ := exists_format known sql
  exact ⟨format.render command, by rw [convert_of_compiled compiled, render, found]; rfl⟩

/-- A conversion that succeeded was asked for by a known name, for a statement that compiles. -/
theorem known_of_convert {sql name text : String} (converted : convert sql name = .ok text) :
    name ∈ knownFormats ∧ ∃ command, Statement.compile sql = .ok command := by
  constructor
  · refine Decidable.byContradiction fun unknown => ?_
    obtain ⟨e, refused⟩ := convert_of_unknown unknown sql
    rw [refused] at converted
    cases converted
  · cases compiled : Statement.compile sql with
    | error e =>
      rw [convert_of_refused compiled] at converted
      cases converted
    | ok command => exact ⟨command, rfl⟩

namespace Converter

/-- One call, in any format: what is kept stems from the calls. -/
theorem keeps_step {asked : List (String × String)} {c : Converter} (keeps : c.Keeps asked)
    (call : Call) (member : ∀ conversion ∈ call.conversion? c.format, conversion ∈ asked) :
    (c.step call).2.Keeps asked ∧ (c.step call).2.format = c.format := by
  cases call with
  | compile sql => exact ⟨keeps, rfl⟩
  | convert sql =>
    exact ⟨keeps_convertFormat keeps (member (sql, c.format.name) rfl), format_convertFormat ..⟩
  | convertFormat sql name =>
    exact ⟨keeps_convertFormat keeps (member (sql, name) rfl), format_convertFormat ..⟩

theorem keeps_run {asked : List (String × String)} {c : Converter} (keeps : c.Keeps asked)
    (calls : List Call) (member : ∀ conversion ∈ conversions c.format calls, conversion ∈ asked) :
    (c.run calls).2.Keeps asked := by
  induction calls generalizing c with
  | nil => exact keeps
  | cons call calls ih =>
    obtain ⟨kept, format⟩ := keeps_step keeps call fun conversion here =>
      member conversion (List.mem_filterMap.mpr ⟨call, List.mem_cons_self, here⟩)
    refine ih kept fun conversion there => ?_
    rw [format] at there
    obtain ⟨other, listed, here⟩ := List.mem_filterMap.mp there
    exact member conversion (List.mem_filterMap.mpr ⟨other, List.mem_cons_of_mem _ listed, here⟩)

/-- An output for an unknown name is that of an earlier conversion with the same key text. -/
theorem exists_earlier {settings : List Setting} {c : Converter} (made : create settings = .ok c)
    {calls : List Call} {sql name text : String} (unknown : name ∉ knownFormats)
    (free : CollisionFree (keyTexts (conversions c.format (calls ++ [.convertFormat sql name]))))
    (given : ((c.run calls).2.convertFormat sql name).1 = .ok text) :
    ∃ earlier ∈ conversions c.format calls, earlier.2 ∈ knownFormats ∧
      SqlToMongo.convert earlier.1 earlier.2 = .ok text ∧
      keyText earlier.2 earlier.1 = keyText name sql := by
  have empty : c.Keeps (conversions c.format calls) := by
    intro entry member
    simp [entries_create made] at member
  have keeps := keeps_run empty calls fun _ member => member
  rcases convertFormat_cases (c.run calls).2 sql name with ⟨kept, member, same, -⟩ | ⟨fresh, -⟩
  · obtain rfl : kept = text := Except.ok.inj (same.symm.trans given)
    obtain ⟨earlier, listed, sameKey, outcome⟩ := keeps _ member
    refine ⟨earlier, listed, (known_of_convert outcome).1, outcome, ?_⟩
    -- Both key texts are among those of the calls, so their digests tell them apart.
    apply free.eq_of_hexOf _ _ sameKey.symm
    · exact List.mem_map.mpr ⟨earlier, by simp [conversions] at listed ⊢; exact .inl listed, rfl⟩
    · exact List.mem_map.mpr ⟨(sql, name), by simp [conversions, Call.conversion?], rfl⟩
  · obtain ⟨e, refused⟩ := convert_of_unknown unknown sql
    rw [fresh, refused] at given
    cases given

/-- A new converter that keeps conversions gives the first one again, to whatever has its key. -/
theorem convertFormat_again {settings : List Setting} {c : Converter}
    (made : create settings = .ok c) (cached : c.cache ≠ none) {sql name text : String}
    (converted : SqlToMongo.convert sql name = .ok text) {other second : String}
    (same : conversionKey second other = conversionKey name sql) :
    ((c.convertFormat sql name).2.2.convertFormat other second).1 = .ok text := by
  obtain ⟨cache, on⟩ := Option.ne_none_iff_exists'.mp cached
  obtain ⟨size, created⟩ := cache_create made on
  obtain ⟨missing, again⟩ := TwoQueue.get_of_create? created (conversionKey name sql) text
  have fresh := convertFresh_fst sql name
  cases outcome : convertFresh sql name with
  | mk result events =>
    obtain rfl : result = .ok text := by rw [outcome] at fresh; exact fresh.trans converted
    have after : (c.convertFormat sql name).2.2 =
        { c with cache := some (cache.insert (conversionKey name sql) text) } := by
      simp only [convertFormat, on, missing, outcome]
    cases found : (cache.insert (conversionKey name sql) text).get (conversionKey name sql) with
    | mk value last =>
      obtain rfl : value = some text := by rw [found] at again; exact again
      rw [after]
      simp only [convertFormat, same, found]

theorem convertFormat_of_uncached {c : Converter} (uncached : c.cache = none) (sql name : String) :
    (c.convertFormat sql name).1 = SqlToMongo.convert sql name := by
  simp only [convertFormat, uncached]
  exact convertFresh_fst sql name

theorem run_of_uncached {c : Converter} (uncached : c.cache = none) (calls : List Call) :
    (c.run calls).2 = c := by
  have one (sql name : String) : (c.convertFormat sql name).2.2 = c := by
    simp only [convertFormat, uncached]
  induction calls with
  | nil => rfl
  | cons call calls ih =>
    have same : (c.step call).2 = c := by
      cases call with
      | compile sql => rfl
      | convert sql => exact one sql c.format.name
      | convertFormat sql name => exact one sql name
    simp only [run, same, ih]

/-- A converter refuses a statement in an unknown format after every run of calls, if and only if
it keeps nothing or the name is not a disguised one. An output that it gives in spite of the name is
that of an earlier conversion in a known format. -/
theorem rejects_iff (settings : List Setting) (c : Converter) (made : create settings = .ok c)
    (name : String) (unknown : name ∉ knownFormats) (sql : String) :
    ((∀ calls, CollisionFree
        (keyTexts (conversions c.format (calls ++ [.convertFormat sql name]))) →
      ∃ e, ((c.run calls).2.convertFormat sql name).1 = .error e) ↔
        c.cache = none ∨ ¬Disguised name sql) ∧
    ∀ calls, CollisionFree
        (keyTexts (conversions c.format (calls ++ [.convertFormat sql name]))) →
      ∀ text, ((c.run calls).2.convertFormat sql name).1 = .ok text →
        ∃ earlier ∈ conversions c.format calls, earlier.2 ∈ knownFormats ∧
          SqlToMongo.convert earlier.1 earlier.2 = .ok text ∧
          keyText earlier.2 earlier.1 = keyText name sql := by
  refine ⟨⟨fun rejects => ?_, fun apart calls free => ?_⟩,
    fun calls free text given => exists_earlier made unknown free given⟩
  · by_cases cached : c.cache = none
    · exact .inl cached
    · refine .inr fun disguised => ?_
      -- One conversion of the whole statement is enough: both calls have one key text.
      obtain ⟨other, known, command, isKnown, compiled, same⟩ :=
        (disguised_iff unknown sql).mp disguised
      obtain ⟨text, converted⟩ := convert_of_known isKnown compiled
      have free : CollisionFree (keyTexts (conversions c.format
          ([.convertFormat other known] ++ [.convertFormat sql name]))) := by
        simp [CollisionFree, keyTexts, conversions, Call.conversion?, same]
      obtain ⟨e, refused⟩ := rejects [.convertFormat other known] free
      have given : ((c.run [.convertFormat other known]).2.convertFormat sql name).1 = .ok text :=
        convertFormat_again made cached converted (by rw [conversionKey, ← same]; rfl)
      rw [given] at refused
      cases refused
  · rcases apart with uncached | plain
    · rw [run_of_uncached uncached, convertFormat_of_uncached uncached]
      exact convert_of_unknown unknown sql
    · cases answer : ((c.run calls).2.convertFormat sql name).1 with
      | error e => exact ⟨e, rfl⟩
      | ok text =>
        obtain ⟨earlier, -, isKnown, outcome, same⟩ := exists_earlier made unknown free answer
        obtain ⟨command, compiled⟩ := (known_of_convert outcome).2
        exact absurd ((disguised_iff unknown sql).mpr
          ⟨earlier.1, earlier.2, command, isKnown, compiled, same⟩) plain

/-- A name that is no continuation of a known one is refused whatever came before. -/
theorem rejects_iff_yaml : ∃ c, create [.cacheSize 4] = .ok c ∧ c.cache ≠ none ∧
    ∀ sql calls, CollisionFree
        (keyTexts (conversions c.format (calls ++ [.convertFormat sql "yaml"]))) →
      ∃ e, ((c.run calls).2.convertFormat sql "yaml").1 = .error e := by
  refine ⟨⟨.shell, some ⟨4, .empty 4, .empty 4, .empty 2⟩⟩, rfl, by simp, fun sql => ?_⟩
  apply ((rejects_iff [.cacheSize 4] _ rfl "yaml" (by decide) sql).1).mpr
  refine .inr ?_
  rintro ⟨format, front, other, command, shape, -⟩
  have first := congrArg (·.toList.head?) shape
  cases format <;> simp [Format.name] at first

/-- The statement in the name of the format and the one that is asked for make up the statement that
was converted before, and its output is given. -/
theorem rejects_fails :
    let whole := "SELECT :sql:DELETE FROM u"
    let name := "shell:sql:SELECT "
    name ∉ knownFormats ∧
    ∃ c, create [.cacheSize 4] = .ok c ∧
      CollisionFree (keyTexts (conversions c.format
        [.convertFormat whole "shell", .convertFormat "DELETE FROM u" name])) ∧
      ((c.run [.convertFormat whole "shell"]).2.convertFormat "DELETE FROM u" name).1 =
        .ok "db.u.find(\x7b\x7d).projection(\x7b\n  \":sql:DELETE\": 1\n\x7d)" := by
  intro whole name
  have same : keyText name "DELETE FROM u" = keyText "shell" whole := by decide +kernel
  have sameKey : conversionKey name "DELETE FROM u" = conversionKey "shell" whole := by
    rw [conversionKey, conversionKey, same]
  have converted : SqlToMongo.convert whole "shell" =
      .ok "db.u.find(\x7b\x7d).projection(\x7b\n  \":sql:DELETE\": 1\n\x7d)" := by cbv
  obtain ⟨c, made, cached⟩ : ∃ c, create [.cacheSize 4] = .ok c ∧ c.cache ≠ none :=
    ⟨_, rfl, by simp⟩
  refine ⟨by decide, c, made, ?_, ?_⟩
  · simp [CollisionFree, keyTexts, conversions, Call.conversion?, same]
  · simp only [run, step]
    exact convertFormat_again made cached converted sameKey

end Converter

end SqlToMongo
