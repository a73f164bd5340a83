import SqlToMongo.Proofs.Statement.Conditions
import SqlToMongo.Proofs.Statement.Items

/-!
# UPDATE as it is written

The parts of an UPDATE, the texts that write them and the command they stand for. Between SET and
WHERE stands a list of items. The search for WHERE takes the gaps at the end of the list along with
it, which a list does not miss. Each item is cut at its first `=`; one that has none, or nothing in
front of it, assigns nothing.

## Main result

`compileUpdate_of_writes`: every text of an UPDATE compiles to the command of its parts.
-/

namespace SqlToMongo.Statement

open Mongo Sql Text

namespace Surface

structure SetPair where
  field : NameText
  unequal : '=' ∉ field.chars := by decide +kernel
  value : ItemText

/-- An item that assigns nothing: it has no `=`, or only blanks before the first one. -/
structure IdleItem extends ItemText where
  idle : '=' ∉ chars ∨ ∀ c ∈ chars.takeWhile (· != '='), isBlank c = true := by decide +kernel

inductive SetItem where
  | assign (a : SetPair)
  | idle (i : IdleItem)

/-- The parts of an UPDATE. Its condition may be any text. -/
structure Update where
  collection : List Char
  isCollection : IsCollection collection
  items : List SetItem
  nonempty : items ≠ []
  condition : Option (FreeText [])

/-! ### What the parts stand for -/

def SetPair.entry (a : SetPair) : String × Value :=
  (String.ofList a.field.chars, a.value.value)

def SetItem.pair? : SetItem → Option SetPair
  | .assign a => some a
  | .idle _ => none

namespace Update

variable (u : Update)

def assigned : List SetPair :=
  u.items.filterMap SetItem.pair?

def filter : Document :=
  match u.condition with
  | some condition => filterOf condition.chars
  | none => []

/-- The fields are set in order, and one that is set again keeps its place. Idle items do not
occur. -/
def command : Command :=
  .updateMany (String.ofList u.collection) u.filter
    [("$set", .doc (Document.ofEntries (u.assigned.map SetPair.entry)))]

end Update

/-! ### Texts -/

/-- The texts of an item: blanks may stand around the `=` of an assignment. -/
inductive SetItem.Writes : SetItem → List Char → Prop where
  | assign (a : SetPair) {before after : List Char} : Sql.Surface.Blanks before →
      Sql.Surface.Blanks after →
      Writes (.assign a) (a.field.chars ++ before ++ '=' :: (after ++ a.value.chars))
  | idle (i : IdleItem) : Writes (.idle i) i.chars

/-- The texts of an UPDATE. The list of items does not have WHERE among its words. -/
inductive Update.Writes (u : Update) : List Char → Prop where
  | parts {update gap set body ending : List Char} {texts : List (List Char)} :
      Spelled "update" update → Gap gap → Opening ["set"] set →
      List.Forall₂ SetItem.Writes u.items texts → Listed texts body →
      (∀ word ∈ fields isGap body, ¬Spelled "where" word) →
      WherePart (u.condition.map FreeText.chars) ending →
      u.Writes (update ++ gap ++ u.collection ++ set ++ body ++ ending)

end Surface

open Surface

/-! ### Items -/

theorem bne_of_notMem {d : Char} {s : List Char} (absent : d ∉ s) : ∀ c ∈ s, (c != d) = true := by
  intro c member
  rw [bne_iff_ne]
  rintro rfl
  exact absent member

/-- An item is cut at its first `=`. -/
theorem assignment?_cut {left : List Char} (unequal : '=' ∉ left) (right : List Char) :
    assignment? (left ++ '=' :: right) =
      if (trim left).isEmpty then none
      else some (String.ofList (trim left), (Literal.classify right).toValue) := by
  obtain ⟨taken, dropped⟩ :=
    takeWhile_run (· != '=') left ('=' :: right) (bne_of_notMem unequal) (by simp)
  simp only [assignment?, taken, dropped]

theorem assignment?_assign (a : SetPair) {before after : List Char}
    (front : ∀ c ∈ before, isBlank c = true) (back : ∀ c ∈ after, isBlank c = true) :
    assignment? (a.field.chars ++ before ++ '=' :: (after ++ a.value.chars)) = some a.entry := by
  have unequal : '=' ∉ a.field.chars ++ before := by
    rw [List.mem_append, not_or]
    exact ⟨a.unequal, fun member => absurd (front _ member) (by decide)⟩
  have value : Literal.classify (after ++ a.value.chars) = Literal.classify a.value.chars := by
    rw [Literal.classify, trim_blanks_append back, Literal.classify]
  rw [assignment?_cut unequal, trim_append_blanks front, a.field.trimmed, value, if_neg]
  · rfl
  · simpa using a.field.nonempty

theorem assignment?_idle (i : IdleItem) : assignment? i.chars = none := by
  by_cases equal : '=' ∈ i.chars
  · obtain ⟨left, right, shape, unequal⟩ := List.eq_append_cons_of_mem equal
    have blanks := i.idle.resolve_left (not_not_intro equal)
    have front := takeWhile_run (· != '=') left ('=' :: right) (bne_of_notMem unequal) (by simp)
    rw [shape, front.1] at blanks
    have nothing := trim_blanks_append blanks []
    rw [List.append_nil] at nothing
    rw [shape, assignment?_cut unequal, nothing]
    rfl
  · have uncut : i.chars.dropWhile (· != '=') = [] :=
      List.dropWhile_eq_nil_iff.mpr (bne_of_notMem equal)
    rw [assignment?, uncut]

theorem filterMap_assignment? {items : List SetItem} {texts : List (List Char)}
    (written : List.Forall₂ SetItem.Writes items texts) :
    texts.filterMap assignment? = (items.filterMap SetItem.pair?).map SetPair.entry := by
  induction written with
  | nil => rfl
  | @cons item text _ _ first _ ih =>
    cases first with
    | assign a before after =>
      have read := assignment?_assign a (List.all_eq_true.mp before) (List.all_eq_true.mp after)
      rw [List.filterMap_cons_some read, ih]
      rfl
    | idle i =>
      rw [List.filterMap_cons_none (assignment?_idle i), ih]
      rfl

theorem isItem_of_writes {item : SetItem} {text : List Char} (writes : item.Writes text) :
    IsItem text := by
  cases writes with
  | idle i => exact i.isItem
  | @assign a before after front back =>
    have equal : Paired false ['='] := .of_plain (by decide)
    have left : Paired false (a.field.chars ++ before) :=
      a.field.isItem.paired.append (.of_blanks (List.all_eq_true.mp front))
    have right : Paired false (after ++ a.value.chars) :=
      (Paired.of_blanks (List.all_eq_true.mp back)).append a.value.isItem.paired
    refine ⟨by simp, ?_, left.append (equal.append right)⟩
    -- The ends of the text are the first end of the field and the last end of the value.
    apply trim_eq_self
    · intro c first
      rw [List.append_assoc, List.head?_append_of_ne_nil _ a.field.nonempty] at first
      exact (isBlank_ends_of_trim a.field.trimmed).1 c first
    · intro c last
      have shape : a.field.chars ++ before ++ '=' :: (after ++ a.value.chars) =
          (a.field.chars ++ before ++ '=' :: after) ++ a.value.chars := by simp
      rw [shape, List.getLast?_append_of_ne_nil _ a.value.isItem.nonempty] at last
      exact (isBlank_ends_of_trim a.value.isItem.trimmed).2 c last

theorem exists_visible {items : List SetItem} {texts : List (List Char)} {body : List Char}
    (nonempty : items ≠ []) (written : List.Forall₂ SetItem.Writes items texts)
    (listed : Listed texts body) : ∃ c ∈ body, isGap c = false := by
  cases written with
  | nil => exact absurd rfl nonempty
  | @cons _ text _ _ first _ =>
    -- The first character of the first item is no blank.
    have isItem := isItem_of_writes first
    obtain ⟨c, rest, rfl⟩ := List.exists_cons_of_ne_nil isItem.nonempty
    refine ⟨c, listed.mem_of_item List.mem_cons_self List.mem_cons_self, ?_⟩
    exact isGap_eq_false ((isBlank_ends_of_trim isItem.trimmed).1 c (by simp))

/-! ### Where the list ends -/

theorem startsWith_of_wherePart {w : Option (List Char)} {part : List Char}
    (isPart : WherePart w part) (nonempty : part ≠ []) : StartsWith "where" part := by
  cases w with
  | none => exact absurd (wherePart_none_iff.mp isPart) nonempty
  | some clause => exact startsWith_of_keywords? (by decide) (wherePart_some_iff.mp isPart)

/-- Between SET and the end of an UPDATE the list is read, without the gaps before it. -/
theorem updates_of_written {collection update gap set body ending : List Char}
    {w : Option (List Char)} (spelled : Spelled "update" update) (white : Gap gap)
    (isCollection : IsCollection collection) (opening : Opening ["set"] set) {c : Char}
    (member : c ∈ body) (visible : isGap c = false)
    (absent : ∀ word ∈ fields isGap body, ¬Spelled "where" word) (part : WherePart w ending) :
    ∃ lead assignments trail, body = lead ++ assignments ++ trail ∧
      (∀ d ∈ lead, isGap d = true) ∧ (∀ d ∈ trail, isGap d = true) ∧
      Updates collection assignments w (update ++ gap ++ collection ++ set ++ body ++ ending) := by
  obtain ⟨lead, core, trail, rfl, isLead, isTrail, nonempty, first, last⟩ :=
    exists_core member visible
  have opening := opening.append_gaps isLead
  have ahead (rest : List Char) : NoGapAhead (core ++ rest) := by
    intro d found
    rw [List.head?_append_of_ne_nil _ nonempty] at found
    exact first d found
  cases part with
  | missing =>
    -- Nothing follows the list, so it keeps the gaps at its end.
    refine ⟨lead, core ++ trail, [], by simp, isLead, by simp, ?_⟩
    have refused : ∀ pre back, core ++ trail = pre ++ back → back ≠ [] →
        ∀ other, ¬WherePart other (back ++ []) := by
      intro pre back whole isBack other found
      have starts := startsWith_of_wherePart found (by simp [isBack])
      obtain ⟨d, inside, seen⟩ := starts.exists_visible (by decide)
      rw [List.append_nil] at inside
      have shape : lead ++ core ++ trail = lead ++ pre ++ (back ++ []) := by simp [whole]
      exact not_startsWith absent shape inside seen (by simp) (by simp) starts
    have visible : NoGapAhead (core ++ trail ++ []) := by
      rw [List.append_nil]
      exact ahead trail
    have updates := Updates.intro spelled white isCollection opening visible .missing refused
    simpa using updates
  | @present where_ clause opened visible =>
    -- WHERE takes the gaps before it, so the list ends visibly.
    refine ⟨lead, core, trail, rfl, isLead, isTrail, ?_⟩
    have part : WherePart (some clause) (trail ++ where_ ++ clause) :=
      .present (opened.gaps_append isTrail) visible
    have refused : ∀ pre back, core = pre ++ back → back ≠ [] →
        ∀ other, ¬WherePart other (back ++ (trail ++ where_ ++ clause)) := by
      intro pre back whole isBack other found
      have seen : isGap (back.getLast isBack) = false := by
        apply last
        rw [whole, List.getLast?_append_of_ne_nil _ isBack, List.getLast?_eq_some_getLast isBack]
        rfl
      have shape : lead ++ core ++ trail = lead ++ pre ++ (back ++ trail) := by simp [whole]
      exact not_startsWith absent shape (List.getLast_mem isBack) seen
        (fun d found => isTrail d (List.mem_of_head? found)) part.isGap_ahead
        (startsWith_of_wherePart found (by simp [isBack]))
    have updates := Updates.intro spelled white isCollection opening (ahead _) part refused
    simpa using updates

/-! ### The command -/

theorem optionalFilter_condition (condition : Option (FreeText [])) :
    optionalFilter ((condition.map FreeText.chars).getD []) =
      match condition with
      | some condition => filterOf condition.chars
      | none => [] := by
  cases condition with
  | none => rfl
  | some condition => simp [optionalFilter, condition.trimmed, condition.nonempty]

/-- Every text of an UPDATE compiles, to the command that sets its fields under its whole condition.
Idle items change nothing. -/
theorem compileUpdate_of_writes (u : Update) (s : List Char) (writes : u.Writes s) :
    compileUpdate s = .ok u.command := by
  cases writes with
  | @parts update gap set body ending texts spelled white opening written listed absent part =>
    have isItem := isItem_of_written isItem_of_writes written
    obtain ⟨c, member, visible⟩ := exists_visible u.nonempty written listed
    obtain ⟨lead, assignments, trail, rfl, isLead, isTrail, updates⟩ :=
      updates_of_written spelled white u.isCollection opening member visible absent part
    have cut : items assignments = texts := by
      rw [← items_of_listed listed isItem]
      exact (items_padded assignments (fun d inside => isBlank_of_isGap (isLead d inside))
        fun d inside => isBlank_of_isGap (isTrail d inside)).symm
    have read : UpdateClauses.read? (update ++ gap ++ u.collection ++ set ++
        (lead ++ assignments ++ trail) ++ ending) =
          some ⟨u.collection, assignments, (u.condition.map FreeText.chars).getD []⟩ :=
      UpdateClauses.read?_eq_some_iff.mpr ⟨_, updates, rfl⟩
    simp only [compileUpdate, read, cut, filterMap_assignment? written, optionalFilter_condition]
    rfl

/-- A literal with a comma and `=`, idle items, a field that is set again, and a condition with the
word `where`. -/
theorem compileUpdate_of_writes_idle :
    let u : Update := {
      collection := "jobs".toList
      isCollection := ⟨by decide +kernel, by decide +kernel⟩
      items := [
        .assign { field := { chars := "memo".toList }, value := { chars := "'x, y = z'".toList } },
        .idle { chars := "idle".toList }, .idle { chars := "= 3".toList },
        .assign { field := { chars := "memo".toList }, value := { chars := "f(5, b=6)".toList } }]
      nonempty := by simp
      condition := some { chars := "k = 1 OR where = 2".toList } }
    let s :=
      "UpDate jobs\nSET memo ='x, y = z' ,idle,, = 3,memo= f(5, b=6)  wHere k = 1 OR where = 2".toList
    u.Writes s ∧ compileUpdate s = .ok (.updateMany "jobs"
      [("$or", .list [.doc [("k", .doc [("$eq", .string "1")])],
        .doc [("where", .doc [("$eq", .string "2")])]])]
      [("$set", .doc [("memo", .string "$f(5, b=6)")])]) := by
  intro u s
  have split : s = "UpDate".toList ++ " ".toList ++ u.collection ++
      ("\n".toList ++ "SET".toList ++ " ".toList) ++
      (([] ++ ("memo".toList ++ " ".toList ++ '=' :: ([] ++ "'x, y = z'".toList)) ++ " ".toList) ++
        ',' :: (([] ++ "idle".toList ++ []) ++ ',' :: ([] ++ ',' ::
        ((" ".toList ++ "= 3".toList ++ []) ++ ',' ::
        ([] ++ ("memo".toList ++ [] ++ '=' :: (" ".toList ++ "f(5, b=6)".toList)) ++ []))))) ++
      (("  ".toList ++ "wHere".toList ++ " ".toList) ++ "k = 1 OR where = 2".toList) := by
    decide +kernel
  have writes : u.Writes s := by
    rw [split]
    exact .parts (by decide +kernel) (by decide +kernel)
      (.keyword (by decide +kernel) (by decide +kernel) (.gap (by decide +kernel)))
      (.cons (.assign _ (by decide +kernel) (by decide +kernel))
        (.cons (.idle _) (.cons (.idle _)
          (.cons (.assign _ (by decide +kernel) (by decide +kernel)) .nil))))
      (.more (.item (by decide +kernel) (by decide +kernel))
        (.more (.item (by decide +kernel) (by decide +kernel))
          (.more (.blank (by decide +kernel))
            (.more (.item (by decide +kernel) (by decide +kernel))
              (.last (.item (by decide +kernel) (by decide +kernel)))))))
      (by decide +kernel)
      (.present (.keyword (by decide +kernel) (by decide +kernel) (.gap (by decide +kernel)))
        (by simp [NoGapAhead, isGap]))
  have command : u.command = .updateMany "jobs"
      [("$or", .list [.doc [("k", .doc [("$eq", .string "1")])],
        .doc [("where", .doc [("$eq", .string "2")])]])]
      [("$set", .doc [("memo", .string "$f(5, b=6)")])] := by cbv
  exact ⟨writes, command ▸ compileUpdate_of_writes u s writes⟩

end SqlToMongo.Statement
