import SqlToMongo.Converter.Basic
import SqlToMongo.Proofs.Cache.TwoQueue

/-!
# Runs of a converter

A converter answers one call after another, and what it keeps goes from call to call. Every
conversion that it keeps is the outcome of a call of the run, stored under the key of that call.
A key is a digest of the format and of the statement in its canonical layout, and compiling a
statement looks at nothing but its canonical layout. So a conversion that is given again is the
one that the call would make itself, as long as no two key texts of the run share a digest.

## Main result

`run_eq_uncached`: the answers of a run are those that a converter without a cache gives.
-/

namespace SqlToMongo

open Cache Mongo Sql

/-! ### Keys -/

namespace Text.Hex

theorem digit_injective : ∀ m < 16, ∀ n < 16, digit m = digit n → m = n := by
  decide +kernel

theorem ofBytes_injective {left right : List UInt8} (same : ofBytes left = ofBytes right) :
    left = right := by
  induction left generalizing right with
  | nil => cases right <;> simp_all [ofBytes]
  | cons b left ih =>
    cases right with
    | nil => simp [ofBytes] at same
    | cons c right =>
      simp only [ofBytes, List.flatMap_cons, List.cons_append, List.nil_append,
        List.cons.injEq] at same
      obtain ⟨high, low, rest⟩ := same
      have left := b.toNat_lt
      have right := c.toNat_lt
      have highs := digit_injective _ (by omega) _ (by omega) high
      have lows := digit_injective _ (Nat.mod_lt _ (by decide)) _ (Nat.mod_lt _ (by decide)) low
      have bytes : b = c := UInt8.toNat_inj.mp (by omega)
      rw [bytes, ih rest]

end Text.Hex

/-- Texts of which no two different ones have the same SHA-256 digest. -/
def CollisionFree (texts : List String) : Prop :=
  texts.Pairwise fun s t => s ≠ t →
    Digest.Sha256.hash s.toUTF8.data.toList ≠ Digest.Sha256.hash t.toUTF8.data.toList

instance (texts : List String) : Decidable (CollisionFree texts) :=
  inferInstanceAs (Decidable (List.Pairwise _ texts))

theorem CollisionFree.eq_of_hexOf {texts : List String} (free : CollisionFree texts) {s t : String}
    (left : s ∈ texts) (right : t ∈ texts)
    (same : Digest.Sha256.hexOf s = Digest.Sha256.hexOf t) : s = t := by
  have digests := Text.Hex.ofBytes_injective (String.ofList_injective same)
  have apart := List.Pairwise.forall_of_forall_of_flip (fun _ _ other => absurd rfl other) free
    (free.imp fun apart other => (apart other.symm).symm) left right
  by_cases equal : s = t
  · exact equal
  · exact absurd digests (apart equal)

/-- The names of formats that are understood. -/
def knownFormats : List String := ["", "shell", "command"]

/-- The key text of a known format gives the format and the canonical layout back. -/
theorem keyText_inj {f g : String} (left : f ∈ knownFormats) (right : g ∈ knownFormats)
    {s t : String} (same : keyText f s = keyText g t) :
    Format.ofName f = Format.ofName g ∧ normalize s.toList = normalize t.toList := by
  have chars := congrArg String.toList same
  simp only [keyText, String.toList_append, String.toList_ofList] at chars
  simp only [knownFormats, List.mem_cons, List.not_mem_nil, or_false] at left right
  rcases left with rfl | rfl | rfl <;> rcases right with rfl | rfl | rfl <;> simp at chars <;>
    exact ⟨rfl, chars⟩

/-- Compiling looks at the canonical layout only. -/
theorem compile_congr {s t : String} (same : normalize s.toList = normalize t.toList) :
    Statement.compile s = Statement.compile t := by
  unfold Statement.compile
  rw [same]

theorem convert_of_refused {sql : String} {e : Statement.Error}
    (refused : Statement.compile sql = .error e) (name : String) :
    convert sql name = .error (.statement e) := by
  unfold convert compile
  rw [refused]
  rfl

theorem convert_of_compiled {sql : String} {command : Command}
    (compiled : Statement.compile sql = .ok command) (name : String) :
    convert sql name = render command name := by
  unfold convert compile
  rw [compiled]
  rfl

/-- Calls with one key text have one outcome. -/
theorem convert_of_keyText {f g : String} (left : f ∈ knownFormats) (right : g ∈ knownFormats)
    {s t : String} (same : keyText f s = keyText g t) : convert s f = convert t g := by
  obtain ⟨format, layout⟩ := keyText_inj left right same
  simp only [convert, compile, render, compile_congr layout, format]

/-! ### Calls -/

namespace Converter

/-- The conversions that are kept, with their keys. -/
def entries (c : Converter) : List (String × String) :=
  match c.cache with
  | none => []
  | some cache => cache.entries

/-- What a converter is asked for. -/
inductive Call where
  | compile (sql : String)
  | convert (sql : String)
  | convertFormat (sql format : String)
  deriving DecidableEq, Repr

inductive Answer where
  | command (result : Except Statement.Error Command)
  | text (result : Except ConvertError String)

/-- The statement and the name of the format that a call asks to convert to. -/
def Call.conversion? (format : Format) : Call → Option (String × String)
  | .compile _ => none
  | .convert sql => some (sql, format.name)
  | .convertFormat sql name => some (sql, name)

/-- The answer to a call, worked out afresh. -/
def Call.answer (format : Format) : Call → Answer
  | .compile sql => .command (Statement.compile sql)
  | .convert sql => .text (SqlToMongo.convert sql format.name)
  | .convertFormat sql name => .text (SqlToMongo.convert sql name)

/-- The answer of a converter to a call, and the converter afterwards. -/
def step (c : Converter) : Call → Answer × Converter
  | .compile sql => (.command (Converter.compile sql).1, c)
  | .convert sql => (.text (c.convert sql).1, (c.convert sql).2.2)
  | .convertFormat sql name => (.text (c.convertFormat sql name).1, (c.convertFormat sql name).2.2)

/-- The answers to one call after another, and the converter afterwards. -/
def run (c : Converter) : List Call → List Answer × Converter
  | [] => ([], c)
  | call :: calls =>
    ((c.step call).1 :: ((c.step call).2.run calls).1, ((c.step call).2.run calls).2)

/-- The conversions that calls ask for. -/
def conversions (format : Format) (calls : List Call) : List (String × String) :=
  calls.filterMap (·.conversion? format)

/-- Everything that is kept is the outcome of one of the conversions, under its key. -/
def Keeps (asked : List (String × String)) (c : Converter) : Prop :=
  ∀ entry ∈ c.entries, ∃ conversion ∈ asked,
    entry.1 = conversionKey conversion.2 conversion.1 ∧
      SqlToMongo.convert conversion.1 conversion.2 = .ok entry.2

theorem convertFresh_fst (sql name : String) :
    (convertFresh sql name).1 = SqlToMongo.convert sql name := by
  unfold convertFresh Converter.compile
  cases compiled : Statement.compile sql with
  | error e => rw [convert_of_refused compiled]
  | ok command =>
    rw [convert_of_compiled compiled]
    cases rendered : render command name with
    | error e => simp [rendered]
    | ok text => simp [rendered]

/-- A conversion either gives something again that is kept under its key, or works it out afresh
and keeps at most that. -/
theorem convertFormat_cases (c : Converter) (sql name : String) :
    (∃ text, (conversionKey name sql, text) ∈ c.entries ∧
      (c.convertFormat sql name).1 = .ok text ∧
      (c.convertFormat sql name).2.2.entries ⊆ c.entries) ∨
    ((c.convertFormat sql name).1 = SqlToMongo.convert sql name ∧
      ∀ entry ∈ (c.convertFormat sql name).2.2.entries, entry ∈ c.entries ∨
        (entry.1 = conversionKey name sql ∧ SqlToMongo.convert sql name = .ok entry.2)) := by
  have fresh := convertFresh_fst sql name
  cases on : c.cache with
  | none =>
    simp only [convertFormat, on]
    exact .inr ⟨fresh, fun entry member => .inl member⟩
  | some cache =>
    have kept : c.entries = cache.entries := by rw [entries, on]
    cases found : cache.get (conversionKey name sql) with
    | mk value after =>
      cases value with
      | some text =>
        simp only [convertFormat, on, found]
        refine .inl ⟨text, ?_, rfl, fun entry member => ?_⟩
        · rw [kept]
          exact TwoQueue.mem_of_get (by rw [found])
        · rw [kept]
          have member : entry ∈ after.entries := member
          exact TwoQueue.mem_of_mem_get (by rw [found]; exact member)
      | none =>
        have unchanged : after = cache := by
          have miss := TwoQueue.get_of_miss (by rw [found] : (cache.get _).1 = none)
          rw [found] at miss
          exact miss
        subst unchanged
        cases outcome : convertFresh sql name with
        | mk result events =>
          rw [outcome] at fresh
          -- Only a result is stored; an error leaves the cache as it was.
          cases result with
          | error e =>
            simp only [convertFormat, on, found, outcome]
            exact .inr ⟨fresh, fun entry member => .inl (kept ▸ member)⟩
          | ok text =>
            simp only [convertFormat, on, found, outcome]
            refine .inr ⟨fresh, fun entry member => ?_⟩
            rcases TwoQueue.mem_of_mem_insert member with rfl | old
            · exact .inr ⟨rfl, fresh.symm⟩
            · exact .inl (kept ▸ old)

theorem format_convertFormat (c : Converter) (sql name : String) :
    (c.convertFormat sql name).2.2.format = c.format := by
  cases on : c.cache with
  | none => simp only [convertFormat, on]
  | some cache =>
    cases found : cache.get (conversionKey name sql) with
    | mk value after =>
      cases value with
      | some text => simp only [convertFormat, on, found]
      | none =>
        cases outcome : convertFresh sql name with
        | mk result events => cases result <;> simp only [convertFormat, on, found, outcome]

theorem keeps_convertFormat {asked : List (String × String)} {c : Converter} (keeps : c.Keeps asked)
    {sql name : String} (member : (sql, name) ∈ asked) :
    (c.convertFormat sql name).2.2.Keeps asked := by
  intro entry after
  rcases convertFormat_cases c sql name with ⟨_, _, _, included⟩ | ⟨_, included⟩
  · exact keeps entry (included after)
  · rcases included entry after with old | ⟨key, outcome⟩
    · exact keeps entry old
    · exact ⟨(sql, name), member, key, outcome⟩

/-! ### Runs -/

/-- The texts that the keys of conversions are digests of. -/
def keyTexts (asked : List (String × String)) : List String :=
  asked.map fun conversion => keyText conversion.2 conversion.1

variable {asked : List (String × String)}

/-- What is kept under the key of a conversion is its outcome. -/
theorem Keeps.convert_eq {c : Converter} (keeps : c.Keeps asked)
    (known : ∀ conversion ∈ asked, conversion.2 ∈ knownFormats)
    (free : CollisionFree (keyTexts asked)) {sql name text : String} (member : (sql, name) ∈ asked)
    (kept : (conversionKey name sql, text) ∈ c.entries) :
    SqlToMongo.convert sql name = .ok text := by
  -- The entry may stem from another call of the run, but one with the same key text.
  obtain ⟨earlier, listed, sameKey, outcome⟩ := keeps _ kept
  have used : ∀ conversion ∈ asked, keyText conversion.2 conversion.1 ∈ keyTexts asked :=
    fun conversion member => List.mem_map.mpr ⟨conversion, member, rfl⟩
  have sameText : keyText name sql = keyText earlier.2 earlier.1 := by
    simp only [conversionKey] at sameKey
    exact free.eq_of_hexOf (used (sql, name) member) (used earlier listed) sameKey
  rw [convert_of_keyText (known (sql, name) member) (known earlier listed) sameText, outcome]

theorem convertFormat_eq_uncached {c : Converter} (keeps : c.Keeps asked)
    (known : ∀ conversion ∈ asked, conversion.2 ∈ knownFormats)
    (free : CollisionFree (keyTexts asked)) {sql name : String} (member : (sql, name) ∈ asked) :
    (c.convertFormat sql name).1 = SqlToMongo.convert sql name := by
  rcases convertFormat_cases c sql name with ⟨text, kept, given, _⟩ | ⟨fresh, _⟩
  · rw [given, keeps.convert_eq known free member kept]
  · exact fresh

/-- One call: the answer is the fresh one, and what is kept stays right. -/
theorem step_eq_uncached {c : Converter} (keeps : c.Keeps asked)
    (known : ∀ conversion ∈ asked, conversion.2 ∈ knownFormats)
    (free : CollisionFree (keyTexts asked)) (call : Call)
    (member : ∀ conversion ∈ call.conversion? c.format, conversion ∈ asked) :
    (c.step call).1 = call.answer c.format ∧ (c.step call).2.Keeps asked ∧
      (c.step call).2.format = c.format := by
  cases call with
  | compile sql =>
    refine ⟨?_, keeps, rfl⟩
    simp only [step, Converter.compile, Call.answer]
    cases Statement.compile sql <;> rfl
  | convert sql =>
    have listed := member (sql, c.format.name) rfl
    exact ⟨congrArg Answer.text (convertFormat_eq_uncached keeps known free listed),
      keeps_convertFormat keeps listed, format_convertFormat c sql c.format.name⟩
  | convertFormat sql name =>
    have listed := member (sql, name) rfl
    exact ⟨congrArg Answer.text (convertFormat_eq_uncached keeps known free listed),
      keeps_convertFormat keeps listed, format_convertFormat c sql name⟩

/-- Call after call, by induction on the calls. -/
theorem run_keeps {c : Converter} (keeps : c.Keeps asked)
    (known : ∀ conversion ∈ asked, conversion.2 ∈ knownFormats)
    (free : CollisionFree (keyTexts asked)) (calls : List Call)
    (member : ∀ conversion ∈ conversions c.format calls, conversion ∈ asked) :
    (c.run calls).1 = calls.map (·.answer c.format) ∧ (c.run calls).2.Keeps asked := by
  -- The conversions of the whole run are fixed; what is kept always stems from some of them.
  induction calls generalizing c with
  | nil => exact ⟨rfl, keeps⟩
  | cons call calls ih =>
    have first : ∀ conversion ∈ call.conversion? c.format, conversion ∈ asked := by
      intro conversion here
      exact member conversion (List.mem_filterMap.mpr ⟨call, by simp, here⟩)
    obtain ⟨answer, kept, format⟩ := step_eq_uncached keeps known free call first
    have later : ∀ conversion ∈ conversions (c.step call).2.format calls, conversion ∈ asked := by
      rw [format]
      intro conversion there
      obtain ⟨other, listed, here⟩ := List.mem_filterMap.mp there
      exact member conversion (List.mem_filterMap.mpr ⟨other, List.mem_cons_of_mem _ listed, here⟩)
    obtain ⟨answers, last⟩ := ih kept later
    rw [format] at answers
    exact ⟨by simp only [run, answer, answers, List.map_cons], last⟩

/-- The cache of a new converter is an empty one. -/
theorem cache_create {settings : List Setting} {c : Converter} (made : create settings = .ok c)
    {cache : TwoQueue String} (on : c.cache = some cache) :
    ∃ size, TwoQueue.create? size = some cache := by
  unfold create at made
  cases configured : settings.foldlM configure (.shell, defaultCacheSize) with
  | error e => simp [configured, bind, Except.bind] at made
  | ok state =>
    simp only [configured, bind, Except.bind, pure, Except.pure] at made
    split at made
    next =>
      obtain rfl := Except.ok.inj made
      simp at on
    next =>
      split at made
      next created =>
        obtain rfl := Except.ok.inj made
        obtain rfl := Option.some.inj on
        exact ⟨_, created⟩
      next => cases made

theorem entries_create {settings : List Setting} {c : Converter}
    (made : create settings = .ok c) : c.entries = [] := by
  cases on : c.cache with
  | none => rw [entries, on]
  | some cache =>
    obtain ⟨size, created⟩ := cache_create made on
    rw [entries, on]
    exact TwoQueue.entries_create? created

theorem name_mem_knownFormats (format : Format) : format.name ∈ knownFormats := by
  cases format <;> decide

theorem known_conversions {calls : List Call} (format : Format)
    (known : ∀ sql name, .convertFormat sql name ∈ calls → name ∈ knownFormats) :
    ∀ conversion ∈ conversions format calls, conversion.2 ∈ knownFormats := by
  intro conversion member
  obtain ⟨call, listed, here⟩ := List.mem_filterMap.mp member
  cases call with
  | compile sql => simp [Call.conversion?] at here
  | convert sql =>
    obtain rfl := Option.some.inj here
    exact name_mem_knownFormats format
  | convertFormat sql name =>
    obtain rfl := Option.some.inj here
    exact known sql name listed

/-- A converter with any settings answers every run of calls as if it had no cache, and keeps
nothing but outcomes of calls that succeeded: no statement that is refused leaves an entry. -/
theorem run_eq_uncached (settings : List Setting) (c : Converter)
    (made : create settings = .ok c) (calls : List Call)
    (known : ∀ sql name, .convertFormat sql name ∈ calls → name ∈ knownFormats)
    (free : CollisionFree (keyTexts (conversions c.format calls))) :
    (c.run calls).1 = calls.map (·.answer c.format) ∧
    (∀ entry ∈ (c.run calls).2.entries, ∃ conversion ∈ conversions c.format calls,
      entry.1 = conversionKey conversion.2 conversion.1 ∧
        SqlToMongo.convert conversion.1 conversion.2 = .ok entry.2) ∧
    ∀ conversion ∈ conversions c.format calls, ∀ e, Statement.compile conversion.1 = .error e →
      conversionKey conversion.2 conversion.1 ∉ (c.run calls).2.entries.map Prod.fst := by
  have formats := known_conversions c.format known
  have empty : c.Keeps (conversions c.format calls) := by
    intro entry member
    simp [entries_create made] at member
  obtain ⟨answers, keeps⟩ := run_keeps empty formats free calls fun _ member => member
  refine ⟨answers, keeps, fun conversion asked e refused kept => ?_⟩
  obtain ⟨⟨key, text⟩, member, rfl⟩ := List.mem_map.mp kept
  have outcome := keeps.convert_eq formats free asked member
  simp [convert_of_refused refused] at outcome

/-- A cache of two entries, a statement in two layouts and two formats, and one that is refused. -/
theorem run_eq_uncached_layouts :
    let calls : List Call := [.convertFormat "SELECT * FROM t" "", .compile "DROP t",
      .convert "SELECT *  FROM t;", .convertFormat "SELECT * FROM t" "command", .convert "DROP t"]
    ∃ c, create [.cacheSize 2] = .ok c ∧
      CollisionFree (keyTexts (conversions c.format calls)) ∧
      (c.run calls).1 = calls.map (·.answer .shell) ∧
      conversionKey "shell" "DROP t" ∉ (c.run calls).2.entries.map Prod.fst := by
  intro calls
  have known : ∀ sql name, .convertFormat sql name ∈ calls → name ∈ knownFormats := by
    intro sql name member
    simp only [calls, List.mem_cons, Call.convertFormat.injEq, reduceCtorEq, List.not_mem_nil,
      or_false, false_or] at member
    rcases member with ⟨_, rfl⟩ | ⟨_, rfl⟩ <;> decide
  have free : CollisionFree (keyTexts (conversions .shell calls)) := by decide +kernel
  obtain ⟨answers, _, refused⟩ := run_eq_uncached [.cacheSize 2]
    ⟨.shell, some ⟨2, .empty 2, .empty 2, .empty 1⟩⟩ rfl calls known free
  exact ⟨_, rfl, free, answers, refused ("DROP t", "shell") (by decide) .unsupported rfl⟩

end Converter

end SqlToMongo
