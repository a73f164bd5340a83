import SqlToMongo.Mongo.CommandDocument
import SqlToMongo.Proofs.Mongo.Arguments

/-!
# Shell calls

A shell text is the name of a collection and a row of calls behind it. The name is written as it is,
so it can look like calls itself. But it has no gap, and a point in the row that stands behind no
gap starts a call. So if the name went on into the row, the method behind it would be one of the
calls that follow a query, and none of these is called like a method.

## Main results

`parts_of_render`: a shell text tells the collection and the calls.
`alike_of_render`, `alike_of_toDocument`: each of the two formats tells what a command asks for.
-/

namespace SqlToMongo.Mongo.Shell

open Text

/-! ### Rows of calls -/

/-- A call that can be told from what stands before and behind it. -/
structure IsCall (c : String × List Value) : Prop where
  word : ∀ letter ∈ c.1.toList, letter.isAlpha = true
  filled : c.2 ≠ []
  regular : ∀ v ∈ c.2, v.Regular
  framed : ∀ v ∈ c.2, isFramed v = true

def callText (c : String × List Value) : List Char :=
  '.' :: (call c.1 c.2).toList

variable {c : String × List Value} {cs ds : List (String × List Value)}

theorem IsCall.guarded (isCall : IsCall c) : Guarded (call c.1 c.2).toList := by
  obtain ⟨name, arguments⟩ := c
  obtain ⟨v, vs, rfl⟩ := List.exists_cons_of_ne_nil isCall.filled
  have pointless : '.' ∉ name.toList ++ ['('] := by
    intro member
    rcases List.mem_append.mp member with inName | bracket
    · exact absurd (isCall.word '.' inName) (by decide)
    · simp at bracket
  have others : Guarded (closing vs) := by
    cases vs with
    | nil => exact guarded_of_notMem (by simp [closing])
    | cons w vs =>
      have comma : Guarded [','] := guarded_of_notMem (by simp)
      simpa [closing] using comma.append (guarded_gap (by decide) _)
  have first := guarded_argument (isCall.framed v List.mem_cons_self)
  rw [toList_call]
  simpa using (guarded_of_notMem pointless).append (first.append others)

/-- A word ends at the parenthesis behind it. -/
theorem word_unique {name name' rest rest' : List Char}
    (word : ∀ c ∈ name, c.isAlpha = true) (word' : ∀ c ∈ name', c.isAlpha = true)
    (same : name ++ '(' :: rest = name' ++ '(' :: rest') : name = name' ∧ rest = rest' := by
  have stop (rest : List Char) : ∀ c ∈ ('(' :: rest).head?, c.isAlpha = false := by simp
  obtain ⟨taken, dropped⟩ := takeWhile_run Char.isAlpha name _ word (stop rest)
  obtain ⟨taken', dropped'⟩ := takeWhile_run Char.isAlpha name' _ word' (stop rest')
  rw [same] at taken dropped
  exact ⟨taken.symm.trans taken', (List.cons.inj (dropped.symm.trans dropped')).2⟩

theorem IsCall.exists_callText (isCall : IsCall c) :
    ∃ rest, callText c = '.' :: (c.1.toList ++ '(' :: rest) := by
  obtain ⟨name, arguments⟩ := c
  obtain ⟨v, vs, rfl⟩ := List.exists_cons_of_ne_nil isCall.filled
  exact ⟨_, congrArg ('.' :: ·) (toList_call name v vs)⟩

/-- A text without gaps that ends inside a row of calls, right before a point, ends at the start of
a call. -/
theorem cut_at_call (isCall : IsCall c) {front rest row : List Char}
    (gapless : ∀ letter ∈ front, isGap letter = false)
    (same : (call c.1 c.2).toList ++ row = front ++ '.' :: rest) :
    ∃ middle, front = (call c.1 c.2).toList ++ middle ∧ row = middle ++ '.' :: rest := by
  rcases List.append_eq_append_iff.mp same with beyond | ⟨middle, inside, behind⟩
  · exact beyond
  · cases middle with
    | nil => exact ⟨[], by simpa using inside.symm, by simpa using behind.symm⟩
    | cons d middle =>
      obtain rfl : '.' = d := (List.cons.inj behind).1
      obtain ⟨letter, member, gap⟩ := isCall.guarded front middle inside
      exact absurd gap (by simp [gapless letter member])

/-- In a row of calls, a point and a word before a parenthesis start a call, unless there is a gap
before them. -/
theorem exists_call_of_cut {front name rest : List Char} (calls : ∀ d ∈ cs, IsCall d)
    (gapless : ∀ letter ∈ front, isGap letter = false)
    (word : ∀ letter ∈ name, letter.isAlpha = true)
    (same : cs.flatMap callText = front ++ '.' :: (name ++ '(' :: rest)) :
    ∃ d ∈ cs, d.1.toList = name := by
  induction cs generalizing front with
  | nil => simp at same
  | cons c cs ih =>
    obtain ⟨isCall, others⟩ := List.forall_mem_cons.mp calls
    rw [List.flatMap_cons] at same
    cases front with
    | nil =>
      obtain ⟨tail, shape⟩ := isCall.exists_callText
      rw [shape] at same
      have words : c.1.toList ++ '(' :: (tail ++ cs.flatMap callText) = name ++ '(' :: rest := by
        simpa using same
      exact ⟨c, List.mem_cons_self, (word_unique isCall.word word words).1⟩
    | cons letter front =>
      have inner : ∀ letter ∈ front, isGap letter = false :=
        fun d member => gapless d (List.mem_cons_of_mem _ member)
      obtain ⟨middle, rfl, row⟩ := cut_at_call isCall inner (List.cons.inj same).2
      obtain ⟨d, member, named⟩ := ih others
        (fun d member => inner d (List.mem_append_right _ member)) row
      exact ⟨d, List.mem_cons_of_mem c member, named⟩

theorem calls_unique : ∀ {cs ds : List (String × List Value)}, (∀ c ∈ cs, IsCall c) →
    (∀ d ∈ ds, IsCall d) → cs.flatMap callText = ds.flatMap callText → cs = ds
  | [], [], _, _, _ => rfl
  | [], _ :: _, _, _, same => by simp [callText] at same
  | _ :: _, [], _, _, same => by simp [callText] at same
  | (name, arguments) :: cs, (name', arguments') :: ds, calls, calls', same => by
    obtain ⟨isCall, otherCalls⟩ := List.forall_mem_cons.mp calls
    obtain ⟨isCall', otherCalls'⟩ := List.forall_mem_cons.mp calls'
    obtain ⟨v, vs, rfl⟩ := List.exists_cons_of_ne_nil isCall.filled
    obtain ⟨w, ws, rfl⟩ := List.exists_cons_of_ne_nil isCall'.filled
    obtain ⟨regular, others⟩ := List.forall_mem_cons.mp isCall.regular
    obtain ⟨regular', others'⟩ := List.forall_mem_cons.mp isCall'.regular
    simp only [List.flatMap_cons, callText, toList_call, List.cons_append, List.append_assoc,
      List.cons.injEq, true_and] at same
    -- The parts of the first calls are equal one after another, and then the rest is.
    obtain ⟨names, behindName⟩ := word_unique isCall.word isCall'.word same
    obtain ⟨rfl, behindFirst⟩ := argument_unique regular regular' (follows_closing vs _)
      (follows_closing ws _) behindName
    obtain ⟨rfl, behindCall⟩ := closing_unique others others' behindFirst
    have equal : name = name' := String.toList_inj.mp names
    rw [equal, calls_unique otherCalls otherCalls' behindCall]

/-! ### Commands -/

/-- What a query asks for beyond its filter. Both formats show it under the same names and in the
same order. -/
def options (q : Find) : List (String × Value) :=
  (if q.projection.isEmpty then [] else [("projection", .doc q.projection)]) ++
  (q.sort.map fun keys => ("sort", Value.doc keys)).toList ++
  match q.limit with
  | none => []
  | some limit => (q.skip.map fun n => ("skip", Value.int n)).toList ++ [("limit", .int limit)]

theorem toDocument_find (q : Find) : (Command.find q).toDocument =
    ("find", .string q.collection) :: ("filter", .doc q.filter) :: options q :=
  rfl

theorem findChain_eq_map (q : Find) :
    findChain q = (options q).map fun option => call option.1 [option.2] := by
  obtain ⟨collection, filter, projection, sort, skip, limit⟩ := q
  simp only [findChain, options]
  cases sort <;> cases limit <;> cases skip <;> split <;> simp

/-- The calls behind the one of a command's method. -/
def chainCalls : Command → List (String × List Value)
  | .find q => (options q).map fun option => (option.1, [option.2])
  | _ => []

/-- The row of calls of a command. -/
def calls (c : Command) : List (String × List Value) :=
  (c.method, arguments c) :: chainCalls c

theorem chain_eq_map (c : Command) : chain c = (chainCalls c).map fun k => call k.1 k.2 := by
  cases c with
  | find q => simp [chain, chainCalls, findChain_eq_map]
  | aggregate | insertOne | updateMany | deleteMany | unknown => rfl

theorem toList_render (c : Command) : (render c).toList =
    'd' :: 'b' :: '.' :: (c.collection.toList ++ (calls c).flatMap callText) := by
  have row : (calls c).flatMap callText =
      (calls c).flatMap fun k => ".".toList ++ (call k.1 k.2).toList := rfl
  rw [row, render, List.cons_append, toList_intercalate_cons, chain_eq_map]
  simp [List.flatMap_map, calls]

/-- A command whose shell text tells its parts. -/
structure Renderable (c : Command) : Prop where
  gapless : ∀ letter ∈ c.collection.toList, isGap letter = false
  regular : Value.Regular (.doc c.toDocument)
  known : c.kind? ≠ none
  limited : ∀ q, c = .find q → q.limit = none → q.skip = none

variable {a b : Command}

/-- The names of the calls that can follow a query. -/
def optionNames : List String :=
  ["projection", "sort", "skip", "limit"]

theorem mem_options {q : Find} {option : String × Value} (member : option ∈ options q) :
    option.1 ∈ optionNames ∧ isFramed option.2 = true := by
  simp only [options, List.mem_append] at member
  rcases member with (projected | sorted) | counted
  · split at projected
    next => simp at projected
    next =>
      obtain rfl := List.mem_singleton.mp projected
      exact ⟨by simp [optionNames], rfl⟩
  · obtain ⟨keys, -, rfl⟩ := Option.map_eq_some_iff.mp (Option.mem_toList.mp sorted)
    exact ⟨by simp [optionNames], rfl⟩
  · split at counted
    next => simp at counted
    next limit _ =>
      rcases List.mem_append.mp counted with skipped | limited
      · obtain ⟨n, -, rfl⟩ := Option.map_eq_some_iff.mp (Option.mem_toList.mp skipped)
        exact ⟨by simp [optionNames], rfl⟩
      · obtain rfl := List.mem_singleton.mp limited
        exact ⟨by simp [optionNames], rfl⟩

theorem method_mem (c : Command) :
    c.method ∈ "unknown" :: CommandKind.all.map CommandKind.name := by
  cases c <;> simp [Command.method, Command.kind?, CommandKind.all]

theorem isAlpha_method (c : Command) : ∀ letter ∈ c.method.toList, letter.isAlpha = true := by
  have words : ∀ name ∈ "unknown" :: CommandKind.all.map CommandKind.name,
      ∀ letter ∈ name.toList, letter.isAlpha = true := by decide
  exact words _ (method_mem c)

/-- No method is called like an option. -/
theorem method_notMem_optionNames (c : Command) : c.method ∉ optionNames := by
  have apart : ∀ name ∈ "unknown" :: CommandKind.all.map CommandKind.name,
      name ∉ optionNames := by decide
  exact apart _ (method_mem c)

theorem regular_arguments (regular : Value.Regular (.doc a.toDocument)) :
    ∀ v ∈ arguments a, v.Regular := by
  obtain ⟨_, entries⟩ := Value.regular_doc.mp regular
  cases a with
  | find q => simpa [arguments] using entries ("filter", .doc q.filter) (by simp [toDocument_find])
  | aggregate collection pipeline =>
    simpa [arguments] using entries ("pipeline", _) (by simp [Command.toDocument])
  | insertOne collection document =>
    have documents : Value.Regular (.list [.doc document]) :=
      entries ("documents", _) (by simp [Command.toDocument])
    simpa [arguments] using Value.regular_list.mp documents
  | updateMany collection filter update =>
    have updates := entries ("updates", _) (by simp [Command.toDocument]; rfl)
    obtain ⟨_, parts⟩ := Value.regular_doc.mp (Value.regular_list.mp updates _ List.mem_cons_self)
    simpa [arguments] using ⟨parts ("q", .doc filter) (by simp), parts ("u", .doc update) (by simp)⟩
  | deleteMany collection filter =>
    have deletes := entries ("deletes", _) (by simp [Command.toDocument]; rfl)
    obtain ⟨_, parts⟩ := Value.regular_doc.mp (Value.regular_list.mp deletes _ List.mem_cons_self)
    simpa [arguments] using parts ("q", .doc filter) (by simp)
  | unknown collection => simp [arguments]

theorem isCall_method (renderable : Renderable a) : IsCall (a.method, arguments a) where
  word := isAlpha_method a
  filled := by
    have known := renderable.known
    cases a <;> simp_all [arguments, Command.kind?]
  regular := regular_arguments renderable.regular
  framed := by cases a <;> simp [arguments, isFramed]

theorem isCall_chain (renderable : Renderable a) : ∀ k ∈ chainCalls a, IsCall k := by
  intro k member
  cases a with
  | find q =>
    obtain ⟨option, listed, rfl⟩ := List.mem_map.mp member
    obtain ⟨named, framed⟩ := mem_options listed
    have words : ∀ name ∈ optionNames, ∀ letter ∈ name.toList, letter.isAlpha = true := by decide
    obtain ⟨_, entries⟩ := Value.regular_doc.mp renderable.regular
    have regular : option.2.Regular := by
      apply entries option
      rw [toDocument_find]
      exact List.mem_cons_of_mem _ (List.mem_cons_of_mem _ listed)
    exact ⟨words _ named, by simp, by simpa using regular, by simpa using framed⟩
  | aggregate | insertOne | updateMany | deleteMany | unknown => simp [chainCalls] at member

theorem isCall_calls (renderable : Renderable a) : ∀ k ∈ calls a, IsCall k :=
  List.forall_mem_cons.mpr ⟨isCall_method renderable, isCall_chain renderable⟩

theorem name_of_mem_chainCalls {k : String × List Value} (member : k ∈ chainCalls a) :
    k.1 ∈ optionNames := by
  cases a with
  | find q =>
    obtain ⟨option, listed, rfl⟩ := List.mem_map.mp member
    exact (mem_options listed).1
  | aggregate | insertOne | updateMany | deleteMany | unknown => simp [chainCalls] at member

/-- A longer name of a collection would take the call of a method into the row of calls, where only
options can follow. -/
theorem eq_nil_of_longer (renderable : Renderable a) (renderable' : Renderable b)
    {front : List Char} (longer : b.collection.toList = a.collection.toList ++ front)
    (same : (calls a).flatMap callText = front ++ (calls b).flatMap callText) : front = [] := by
  have gapless : ∀ letter ∈ front, isGap letter = false := by
    intro letter member
    apply renderable'.gapless
    rw [longer]
    exact List.mem_append_right _ member
  obtain ⟨tail, shape⟩ := (isCall_method renderable').exists_callText
  have method : (calls b).flatMap callText =
      '.' :: (b.method.toList ++ '(' :: (tail ++ (chainCalls b).flatMap callText)) := by
    rw [calls, List.flatMap_cons, shape]
    simp
  rw [method, calls, List.flatMap_cons] at same
  cases front with
  | nil => rfl
  | cons letter front =>
    have inner : ∀ letter ∈ front, isGap letter = false :=
      fun d member => gapless d (List.mem_cons_of_mem _ member)
    obtain ⟨middle, rfl, row⟩ := cut_at_call (isCall_method renderable) inner (List.cons.inj same).2
    obtain ⟨k, member, named⟩ := exists_call_of_cut (isCall_chain renderable)
      (fun d member => inner d (List.mem_append_right _ member)) (isAlpha_method b) row
    have option := name_of_mem_chainCalls member
    rw [String.toList_inj.mp named] at option
    exact absurd option (method_notMem_optionNames b)

/-- A shell text tells the collection and the calls. -/
theorem parts_of_render (renderable : Renderable a) (renderable' : Renderable b)
    (same : render a = render b) : a.collection = b.collection ∧ calls a = calls b := by
  have texts := congrArg String.toList same
  simp only [toList_render, List.cons.injEq, true_and] at texts
  have collections : a.collection.toList = b.collection.toList := by
    rcases List.append_eq_append_iff.mp texts with ⟨front, longer, row⟩ | ⟨front, longer, row⟩
    · rw [longer, eq_nil_of_longer renderable renderable' longer row, List.append_nil]
    · rw [longer, eq_nil_of_longer renderable' renderable longer row, List.append_nil]
  rw [collections] at texts
  exact ⟨String.toList_inj.mp collections, calls_unique (isCall_calls renderable)
    (isCall_calls renderable') (List.append_cancel_left texts)⟩

/-! ### The two formats -/

/-- Two commands ask the same of the database. The stages of a pipeline count as the documents that
they are, since an accumulator can take the place of the group key. -/
inductive Alike : Command → Command → Prop where
  | find (q : Find) : Alike (.find q) (.find q)
  | aggregate {collection : String} {pipeline pipeline' : List Stage} :
      pipelineDocuments pipeline = pipelineDocuments pipeline' →
      Alike (.aggregate collection pipeline) (.aggregate collection pipeline')
  | insertOne (collection : String) (document : Document) :
      Alike (.insertOne collection document) (.insertOne collection document)
  | updateMany (collection : String) (filter update : Document) :
      Alike (.updateMany collection filter update) (.updateMany collection filter update)
  | deleteMany (collection : String) (filter : Document) :
      Alike (.deleteMany collection filter) (.deleteMany collection filter)

theorem Alike.toDocument_eq (alike : Alike a b) : a.toDocument = b.toDocument := by
  cases alike with
  | aggregate documents => rw [Command.toDocument, Command.toDocument, documents]
  | find | insertOne | updateMany | deleteMany => rfl

theorem Alike.render_eq (alike : Alike a b) : render a = render b := by
  cases alike with
  | aggregate documents =>
    simp only [render, arguments, documents]
    rfl
  | find | insertOne | updateMany | deleteMany => rfl

theorem lookup_options (q : Find) :
    (options q).lookup "projection" =
      (if q.projection.isEmpty then none else some (.doc q.projection)) ∧
    (options q).lookup "sort" = q.sort.map Value.doc ∧
    (options q).lookup "limit" = q.limit.map Value.int ∧
    (options q).lookup "skip" = q.limit.bind fun _ => q.skip.map Value.int := by
  obtain ⟨collection, filter, projection, sort, skip, limit⟩ := q
  cases projection <;> cases sort <;> cases limit <;> cases skip <;>
    simp [options, List.lookup]

/-- The options tell the rest of a query that skips only below a limit. -/
theorem eq_of_options {q r : Find} (limited : q.limit = none → q.skip = none)
    (limited' : r.limit = none → r.skip = none) (collections : q.collection = r.collection)
    (filters : q.filter = r.filter) (same : options q = options r) : q = r := by
  obtain ⟨projection, sort, limit, skip⟩ := lookup_options q
  obtain ⟨projection', sort', limit', skip'⟩ := lookup_options r
  rw [same] at projection sort limit skip
  have projections : q.projection = r.projection := by
    have both := projection.symm.trans projection'
    split at both <;> split at both <;> simp_all
  have sorts : q.sort = r.sort :=
    Option.map_injective (fun _ _ => Value.doc.inj) (sort.symm.trans sort')
  have limits : q.limit = r.limit :=
    Option.map_injective (fun _ _ => Value.int.inj) (limit.symm.trans limit')
  have skips : q.skip = r.skip := by
    have both := skip.symm.trans skip'
    rw [limits] at both limited
    cases bound : r.limit with
    | none => rw [limited bound, limited' bound]
    | some n =>
      rw [bound] at both
      exact Option.map_injective (fun _ _ => Value.int.inj) both
  cases q
  cases r
  simp_all

theorem alike_of_toDocument (renderable : Renderable a) (renderable' : Renderable b)
    (same : a.toDocument = b.toDocument) : Alike a b := by
  cases a with
  | find q =>
    cases b with
    | find r =>
      simp only [toDocument_find, List.cons.injEq, Prod.mk.injEq, true_and, Value.string.injEq,
        Value.doc.injEq] at same
      obtain ⟨collections, filters, others⟩ := same
      rw [eq_of_options (renderable.limited q rfl) (renderable'.limited r rfl) collections filters
        others]
      exact .find r
    | aggregate | insertOne | updateMany | deleteMany | unknown => simp [Command.toDocument] at same
  | aggregate collection pipeline =>
    cases b with
    | aggregate collection' pipeline' =>
      simp only [Command.toDocument, List.cons.injEq, Prod.mk.injEq, true_and, Value.string.injEq,
        Value.list.injEq, and_true] at same
      obtain ⟨rfl, documents⟩ := same
      exact .aggregate documents
    | find | insertOne | updateMany | deleteMany | unknown => simp [Command.toDocument] at same
  | insertOne collection document =>
    cases b with
    | insertOne collection' document' =>
      obtain ⟨rfl, rfl⟩ := by simpa [Command.toDocument] using same
      exact .insertOne collection document
    | find | aggregate | updateMany | deleteMany | unknown => simp [Command.toDocument] at same
  | updateMany collection filter update =>
    cases b with
    | updateMany collection' filter' update' =>
      obtain ⟨rfl, rfl, rfl⟩ := by simpa [Command.toDocument] using same
      exact .updateMany collection filter update
    | find | aggregate | insertOne | deleteMany | unknown => simp [Command.toDocument] at same
  | deleteMany collection filter =>
    cases b with
    | deleteMany collection' filter' =>
      obtain ⟨rfl, rfl⟩ := by simpa [Command.toDocument] using same
      exact .deleteMany collection filter
    | find | aggregate | insertOne | updateMany | unknown => simp [Command.toDocument] at same
  | unknown collection => exact absurd rfl renderable.known

theorem kind_of_method (same : a.method = b.method) : a.kind? = b.kind? := by
  cases a <;> cases b <;> simp_all [Command.method, Command.kind?, CommandKind.name]

theorem alike_of_calls (renderable : Renderable a) (renderable' : Renderable b)
    (collections : a.collection = b.collection) (same : calls a = calls b) : Alike a b := by
  obtain ⟨first, chains⟩ := List.cons.inj same
  obtain ⟨methods, values⟩ := Prod.mk.inj first
  have kinds := kind_of_method methods
  cases a with
  | find q =>
    cases b with
    | find r =>
      have filters : q.filter = r.filter := by simpa [arguments] using values
      have others : options q = options r := by
        refine List.map_injective_iff.mpr ?_ chains
        rintro ⟨name, value⟩ ⟨name', value'⟩ pair
        simpa using pair
      rw [eq_of_options (renderable.limited q rfl) (renderable'.limited r rfl) collections filters
        others]
      exact .find r
    | aggregate | insertOne | updateMany | deleteMany | unknown => cases kinds
  | aggregate collection pipeline =>
    cases b with
    | aggregate collection' pipeline' =>
      obtain rfl : collection = collection' := collections
      exact .aggregate (by simpa [arguments] using values)
    | find | insertOne | updateMany | deleteMany | unknown => cases kinds
  | insertOne collection document =>
    cases b with
    | insertOne collection' document' =>
      obtain rfl : collection = collection' := collections
      obtain rfl : document = document' := by simpa [arguments] using values
      exact .insertOne collection document
    | find | aggregate | updateMany | deleteMany | unknown => cases kinds
  | updateMany collection filter update =>
    cases b with
    | updateMany collection' filter' update' =>
      obtain rfl : collection = collection' := collections
      obtain ⟨rfl, rfl⟩ : filter = filter' ∧ update = update' := by simpa [arguments] using values
      exact .updateMany collection filter update
    | find | aggregate | insertOne | deleteMany | unknown => cases kinds
  | deleteMany collection filter =>
    cases b with
    | deleteMany collection' filter' =>
      obtain rfl : collection = collection' := collections
      obtain rfl : filter = filter' := by simpa [arguments] using values
      exact .deleteMany collection filter
    | find | aggregate | insertOne | updateMany | unknown => cases kinds
  | unknown collection => exact absurd rfl renderable.known

theorem alike_of_render (renderable : Renderable a) (renderable' : Renderable b)
    (same : render a = render b) : Alike a b := by
  obtain ⟨collections, rows⟩ := parts_of_render renderable renderable' same
  exact alike_of_calls renderable renderable' collections rows

end SqlToMongo.Mongo.Shell
