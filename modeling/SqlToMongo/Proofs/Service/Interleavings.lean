import Mathlib
import SqlToMongo.Proofs.Service.Conversions

/-!
# Callers and workers in any order

A caller asks for one statement, which it converts itself, or for a batch, whose statements it
submits one after another to the workers of the pool, waiting for a free one where their number is
limited; when all places of its results are filled it answers. A run is any order of the steps of
callers and workers, each at any moment of the clock.

## Main results

`Machine.sound_of_run?`: what holds in every state that a run reaches.
`answers_of_run`: every answer is the one that the statements have on their own, and everybody gets
one.
-/

namespace SqlToMongo.Service

open Cache

/-! ### The machine -/

/-- What a caller asks for. -/
inductive Call where
  | convert (sql format : String)
  | batch (statements : List String) (format : String)

inductive Answer where
  | text (result : Except ConvertError String)
  | results (result : Except ConvertError (List BatchResult))

/-- A place in the results of a batch. -/
inductive Slot where
  | unsubmitted
  | running (phase : Phase)
  | filled (outcome : Outcome)

inductive Caller where
  | asked (call : Call)
  | converting (task : Task) (phase : Phase)
  | collecting (format : Format) (slots : List (String × Slot))
  | answered (answer : Answer)

structure Machine where
  world : World
  callers : List Caller

/-- Who moves: a caller, or the worker at a place of its batch. -/
structure Move where
  caller : Nat
  worker : Option Nat := none

def Phase.result? : Phase → Option (Except ConvertError String)
  | .finished result => some result
  | _ => none

namespace Slot

def isUnsubmitted : Slot → Bool
  | unsubmitted => true
  | _ => false

def isRunning : Slot → Bool
  | running _ => true
  | _ => false

end Slot

/-- The results of a batch once every place is filled. -/
def results? : List (String × Slot) → Option (List BatchResult)
  | [] => some []
  | (sql, .filled outcome) :: rest => (results? rest).map (⟨sql, outcome⟩ :: ·)
  | _ => none

/-- What becomes of a submitted statement; without a free worker the caller waits. -/
def submit? (s : Service) (room : Bool) : Option Slot :=
  match s.refusal? false with
  | some outcome => some (.filled outcome)
  | none => if room then some (.running .start) else none

namespace Caller

/-- A caller that resolves the format of its call. -/
def enter (s : Service) : Call → Caller
  | .convert sql name =>
    match s.resolveFormat name with
    | .ok format => converting ⟨sql, format⟩ .start
    | .error e => answered (.text (.error e))
  | .batch statements name =>
    match s.resolveFormat name with
    | .ok format => collecting format (statements.map (·, .unsubmitted))
    | .error e => answered (.results (.error e))

/-- One step of a caller or of a worker of its batch. -/
def step? (room : Bool) (w : World) (now : Int) : Caller → Option Nat → Option (Caller × World)
  | asked call, none => some (enter w.service call, w)
  | converting t phase, none =>
    match phase.result? with
    | some result => some (answered (.text result), w)
    | none => (w.advance? now t phase).map fun (next, w) => (converting t next, w)
  | collecting format slots, none =>
    match slots.findIdx? (·.2.isUnsubmitted) with
    | some i => do
      let (sql, _) ← slots[i]?
      let slot ← submit? w.service room
      return (collecting format (slots.set i (sql, slot)), w)
    | none => (results? slots).map fun results => (answered (.results (.ok results)), w)
  | collecting format slots, some i =>
    match slots[i]? with
    | some (sql, .running phase) =>
      match phase.result? with
      | some result => some (collecting format (slots.set i (sql, .filled (.ofResult result))), w)
      | none => (w.advance? now ⟨sql, format⟩ phase).map fun (next, w) =>
        (collecting format (slots.set i (sql, .running next)), w)
    | _ => none
  | _, _ => none

/-- The workers that a caller keeps busy. -/
def busy : Caller → Nat
  | collecting _ slots => slots.countP (·.2.isRunning)
  | _ => 0

end Caller

namespace Machine

def start (s : Service) (calls : List Call) : Machine :=
  ⟨⟨s, []⟩, calls.map .asked⟩

/-- Whether a worker is free. A number of workers that is not positive is no limit. -/
def hasRoom (m : Machine) : Bool :=
  m.world.service.config.workers ≤ 0 ||
    ((m.callers.map Caller.busy).sum : Int) < m.world.service.config.workers

def step? (m : Machine) (now : Int) (move : Move) : Option Machine := do
  let caller ← m.callers[move.caller]?
  let (next, world) ← caller.step? m.hasRoom m.world now move.worker
  return ⟨world, m.callers.set move.caller next⟩

def run? (m : Machine) (moves : List (Int × Move)) : Option Machine :=
  moves.foldlM (fun m (now, move) => m.step? now move) m

end Machine

/-! ### What a caller can do -/

namespace Caller

variable {room : Bool} {w v : World} {now : Int}

/-- The steps of callers and workers. -/
inductive Step (room : Bool) (w : World) (now : Int) : Caller → Caller → World → Prop where
  | enter (call : Call) : Step room w now (asked call) (enter w.service call) w
  | advance {t : Task} {phase next : Phase} {v : World}
      (advanced : w.advance? now t phase = some (next, v)) :
      Step room w now (converting t phase) (converting t next) v
  | answer (t : Task) (result : Except ConvertError String) :
      Step room w now (converting t (.finished result)) (answered (.text result)) w
  | submit (format : Format) {slots : List (String × Slot)} {i : Nat} {sql : String} {slot : Slot}
      (found : slots[i]? = some (sql, .unsubmitted)) (taken : submit? w.service room = some slot) :
      Step room w now (collecting format slots) (collecting format (slots.set i (sql, slot))) w
  | work {format : Format} {slots : List (String × Slot)} {i : Nat} {sql : String}
      {phase next : Phase} {v : World} (found : slots[i]? = some (sql, .running phase))
      (advanced : w.advance? now ⟨sql, format⟩ phase = some (next, v)) :
      Step room w now (collecting format slots)
        (collecting format (slots.set i (sql, .running next))) v
  | fill (format : Format) {slots : List (String × Slot)} {i : Nat} {sql : String}
      {result : Except ConvertError String}
      (found : slots[i]? = some (sql, .running (.finished result))) :
      Step room w now (collecting format slots)
        (collecting format (slots.set i (sql, .filled (.ofResult result)))) w
  | collect (format : Format) {slots : List (String × Slot)} {results : List BatchResult}
      (filled : results? slots = some results) :
      Step room w now (collecting format slots) (answered (.results (.ok results))) w

theorem finished_of_result? {phase : Phase} {result : Except ConvertError String}
    (ended : phase.result? = some result) : phase = .finished result := by
  cases phase with
  | finished other => rw [Option.some.inj ended]
  | start | missed | leading | waiting | converted => cases ended

theorem exists_of_findIdx? {slots : List (String × Slot)} {i : Nat}
    (found : slots.findIdx? (·.2.isUnsubmitted) = some i) :
    ∃ sql, slots[i]? = some (sql, .unsubmitted) := by
  obtain ⟨inside, own, -⟩ := List.findIdx?_eq_some_iff_getElem.mp found
  cases here : slots[i] with
  | mk sql slot =>
    rw [here] at own
    cases slot with
    | unsubmitted => exact ⟨sql, by rw [List.getElem?_eq_getElem inside, here]⟩
    | running | filled => cases own

theorem step_of_step? {caller next : Caller} {actor : Option Nat}
    (stepped : caller.step? room w now actor = some (next, v)) :
    Step room w now caller next v := by
  cases caller with
  | asked call =>
    cases actor with
    | some i => cases stepped
    | none =>
      cases stepped
      exact .enter call
  | converting t phase =>
    cases actor with
    | some i => cases stepped
    | none =>
      simp only [step?] at stepped
      split at stepped
      next result ended =>
        cases stepped
        rw [finished_of_result? ended]
        exact .answer t result
      next =>
        obtain ⟨⟨later, after⟩, advanced, same⟩ := Option.map_eq_some_iff.mp stepped
        cases same
        exact .advance advanced
  | collecting format slots =>
    cases actor with
    | none =>
      simp only [step?] at stepped
      split at stepped
      next i place =>
        obtain ⟨sql, found⟩ := exists_of_findIdx? place
        simp only [found, Option.bind_eq_bind, Option.bind_some, Option.bind_eq_some_iff,
          Option.pure_def] at stepped
        obtain ⟨slot, taken, same⟩ := stepped
        cases same
        exact .submit format found taken
      next =>
        obtain ⟨results, filled, same⟩ := Option.map_eq_some_iff.mp stepped
        cases same
        exact .collect format filled
    | some i =>
      simp only [step?] at stepped
      split at stepped
      next sql phase found =>
        split at stepped
        next result ended =>
          cases stepped
          rw [finished_of_result? ended] at found
          exact .fill format found
        next =>
          obtain ⟨⟨later, after⟩, advanced, same⟩ := Option.map_eq_some_iff.mp stepped
          cases same
          exact .work found advanced
      next => cases stepped
  | answered answer => cases actor <;> cases stepped

end Caller

/-! ### Right answers -/

namespace Call

/-- The conversions that a call leads to; none when its format is refused. -/
def tasks (s : Service) : Call → List Task
  | convert sql name =>
    match s.resolveFormat name with
    | .ok format => [⟨sql, format⟩]
    | .error _ => []
  | batch statements name =>
    match s.resolveFormat name with
    | .ok format => statements.map (⟨·, format⟩)
    | .error _ => []

/-- The answer to a call with each statement converted on its own. -/
def answer (s : Service) : Call → Answer
  | convert sql name => .text do SqlToMongo.convert sql (← s.resolveFormat name).name
  | batch statements name => .results do
    let format ← s.resolveFormat name
    return statements.map fun sql => ⟨sql, .ofResult (SqlToMongo.convert sql format.name)⟩

theorem answer_convert {s : Service} {sql name : String} {format : Format}
    (resolved : s.resolveFormat name = .ok format) :
    (convert sql name).answer s = .text (⟨sql, format⟩ : Task).outcome := by
  simp only [answer, resolved, bind, Except.bind, Task.outcome]

theorem answer_batch {s : Service} {statements : List String} {name : String} {format : Format}
    (resolved : s.resolveFormat name = .ok format) :
    (batch statements name).answer s = .results (.ok (statements.map fun sql =>
      ⟨sql, .ofResult (SqlToMongo.convert sql format.name)⟩)) := by
  simp only [answer, resolved, bind, Except.bind, pure, Except.pure]

end Call

def Slot.Sound (w : World) (t : Task) : Slot → Prop
  | unsubmitted => True
  | running phase => phase.Sound w t
  | filled outcome => outcome = .ofResult t.outcome

/-- A caller is on its way to the answer of a call. -/
inductive Serves (s : Service) (w : World) : Call → Caller → Prop where
  | asked (call : Call) : Serves s w call (.asked call)
  | converting {sql name : String} {format : Format} {phase : Phase}
      (resolved : s.resolveFormat name = .ok format) (right : phase.Sound w ⟨sql, format⟩) :
      Serves s w (.convert sql name) (.converting ⟨sql, format⟩ phase)
  | collecting {statements : List String} {name : String} {format : Format}
      {slots : List (String × Slot)} (resolved : s.resolveFormat name = .ok format)
      (named : slots.map Prod.fst = statements)
      (right : ∀ slot ∈ slots, slot.2.Sound w ⟨slot.1, format⟩) :
      Serves s w (.batch statements name) (.collecting format slots)
  | answered (call : Call) : Serves s w call (.answered (call.answer s))

theorem Serves.mono {s : Service} {w v : World} (extension : w.Extends v) {call : Call}
    {caller : Caller} (serves : Serves s w call caller) : Serves s v call caller := by
  cases serves with
  | asked => exact .asked call
  | converting resolved right => exact .converting resolved (right.mono extension)
  | collecting resolved named right =>
    refine .collecting resolved named fun slot listed => ?_
    have before := right slot listed
    obtain ⟨sql, slot⟩ := slot
    cases slot with
    | unsubmitted => trivial
    | running phase => exact before.mono extension
    | filled outcome => exact before
  | answered => exact .answered call

/-- The results are the outcomes of the statements, in order. -/
theorem results?_sound {w : World} {format : Format} {slots : List (String × Slot)}
    (right : ∀ slot ∈ slots, slot.2.Sound w ⟨slot.1, format⟩) {results : List BatchResult}
    (filled : results? slots = some results) :
    results = (slots.map Prod.fst).map fun sql =>
      ⟨sql, .ofResult (SqlToMongo.convert sql format.name)⟩ := by
  induction slots generalizing results with
  | nil =>
    cases filled
    rfl
  | cons first rest ih =>
    obtain ⟨sql, slot⟩ := first
    cases slot with
    | unsubmitted | running => cases filled
    | filled outcome =>
      obtain ⟨others, found, rfl⟩ := Option.map_eq_some_iff.mp filled
      have own : outcome = .ofResult (SqlToMongo.convert sql format.name) :=
        right (sql, .filled outcome) List.mem_cons_self
      rw [ih (fun slot listed => right slot (List.mem_cons_of_mem _ listed)) found, own]
      rfl

theorem serves_enter (s : Service) (w : World) (call : Call) :
    Serves s w call (Caller.enter s call) := by
  have answer : Serves s w call (.answered (call.answer s)) := .answered call
  cases call with
  | convert sql name =>
    cases resolved : s.resolveFormat name with
    | ok format =>
      simp only [Caller.enter, resolved]
      exact .converting resolved trivial
    | error e =>
      simp only [Caller.enter, Call.answer, resolved] at answer ⊢
      exact answer
  | batch statements name =>
    cases resolved : s.resolveFormat name with
    | ok format =>
      simp only [Caller.enter, resolved]
      refine .collecting resolved (by simp [Function.comp_def]) fun slot listed => ?_
      obtain ⟨sql, -, rfl⟩ := List.mem_map.mp listed
      trivial
    | error e =>
      simp only [Caller.enter, Call.answer, resolved] at answer ⊢
      exact answer

theorem map_fst_set {slots : List (String × Slot)} {i : Nat} {sql : String} {before : Slot}
    (found : slots[i]? = some (sql, before)) (slot : Slot) :
    (slots.set i (sql, slot)).map Prod.fst = slots.map Prod.fst := by
  obtain ⟨inside, here⟩ := List.getElem?_eq_some_iff.mp found
  rw [List.map_set]
  apply List.ext_getElem (by simp)
  intro j _ _
  rw [List.getElem_set]
  split
  next same => simp [← same, here]
  next => rfl

theorem resolveFormat_eq {s : Service} {w : World}
    (settings : ∃ cache, w.service = { s with cache })
    (name : String) : w.service.resolveFormat name = s.resolveFormat name := by
  obtain ⟨cache, same⟩ := settings
  rw [same]
  rfl

section

variable {s : Service} {tasks : List Task} {room : Bool} {w v : World} {now : Int}
  {call : Call} {caller next : Caller}

theorem Serves.settle {answer : Answer} (same : answer = call.answer s) :
    Serves s w call (.answered answer) := by
  rw [same]
  exact .answered call

/-- A place of a batch changes; the others keep what they have. -/
theorem Serves.replace {statements : List String} {name : String} {format : Format}
    {slots : List (String × Slot)} {i : Nat} {sql : String} {before slot : Slot}
    (serves : Serves s v (.batch statements name) (.collecting format slots))
    (found : slots[i]? = some (sql, before)) (right : slot.Sound v ⟨sql, format⟩) :
    Serves s v (.batch statements name) (.collecting format (slots.set i (sql, slot))) := by
  cases serves with
  | collecting resolved named others =>
    refine .collecting resolved ((map_fst_set found slot).trans named) fun place listed => ?_
    rcases List.mem_or_eq_of_mem_set listed with old | rfl
    · exact others place old
    · exact right

/-- One step: what conversions see stays right, and the caller stays on its way. -/
theorem Serves.step (agree : Agree tasks) (accepting : s.accepting = true)
    (settings : ∃ cache, w.service = { s with cache }) (sound : w.Sound tasks)
    (member : ∀ t ∈ call.tasks s, t ∈ tasks) (serves : Serves s w call caller)
    (step : Caller.Step room w now caller next v) :
    v.Sound tasks ∧ Serves s v call next ∧ w.Extends v := by
  cases step with
  | enter asked =>
    cases serves
    have entered : Caller.enter w.service call = Caller.enter s call := by
      cases call <;> simp only [Caller.enter, resolveFormat_eq settings]
    rw [entered]
    exact ⟨sound, serves_enter s w call, .refl w⟩
  | advance advanced =>
    cases serves with
    | @converting sql name format _ resolved right =>
      have own : ⟨sql, format⟩ ∈ tasks := member _ (by simp [Call.tasks, resolved])
      obtain ⟨after, right, extension⟩ := advance?_sound agree own sound right advanced
      exact ⟨after, .converting resolved right, extension⟩
  | answer t result =>
    cases serves with
    | @converting sql name format _ resolved right =>
      refine ⟨sound, .settle ?_, .refl w⟩
      rw [Call.answer_convert resolved, right]
  | submit format found taken =>
    cases serves with
    | collecting resolved named right =>
      -- On an open pool a statement is never turned away.
      have accepts : w.service.refusal? false = none := by
        obtain ⟨cache, same⟩ := settings
        simp [same, refusal?, accepting]
      simp only [submit?, accepts] at taken
      split at taken <;> cases taken
      exact ⟨sound, (Serves.collecting resolved named right).replace found trivial, .refl w⟩
  | @work format slots i sql phase after _ found advanced =>
    cases serves with
    | @collecting statements name _ _ resolved named right =>
      have listed : sql ∈ statements := by
        rw [← named]
        exact List.mem_map.mpr ⟨_, List.mem_of_getElem? found, rfl⟩
      have own : ⟨sql, format⟩ ∈ tasks :=
        member _ (by simpa [Call.tasks, resolved] using listed)
      obtain ⟨kept, phaseRight, extension⟩ :=
        advance?_sound agree own sound (right _ (List.mem_of_getElem? found)) advanced
      have later := (Serves.collecting resolved named right).mono extension
      exact ⟨kept, later.replace found phaseRight, extension⟩
  | @fill format slots i sql result found =>
    cases serves with
    | collecting resolved named right =>
      have own : result = (⟨sql, format⟩ : Task).outcome := right _ (List.mem_of_getElem? found)
      exact ⟨sound, (Serves.collecting resolved named right).replace found
        (congrArg Outcome.ofResult own), .refl w⟩
  | collect format filled =>
    cases serves with
    | collecting resolved named right =>
      refine ⟨sound, .settle ?_, .refl w⟩
      rw [Call.answer_batch resolved, results?_sound right filled, named]

/-! ### Flights have leaders -/

/-- One of the conversions of a caller leads the flight. -/
def Caller.Leads (j : Nat) : Caller → Prop
  | converting _ phase => phase = .leading j
  | collecting _ slots => ∃ slot ∈ slots, slot.2 = .running (.leading j)
  | _ => False

/-- A place that is not the leader can change without a leader getting lost. -/
theorem leads_set {format : Format} {slots : List (String × Slot)} {i j : Nat} {sql : String}
    {before : Slot} (found : slots[i]? = some (sql, before))
    (other : before ≠ .running (.leading j))
    (slot : Slot) (leads : (Caller.collecting format slots).Leads j) :
    (Caller.collecting format (slots.set i (sql, slot))).Leads j := by
  obtain ⟨place, listed, leader⟩ := leads
  obtain ⟨k, there⟩ := List.getElem?_of_mem listed
  have apart : i ≠ k := by
    rintro rfl
    obtain rfl : (sql, before) = place := Option.some.inj (found.symm.trans there)
    exact other leader
  refine ⟨place, List.mem_of_getElem? (i := k) ?_, leader⟩
  rw [List.getElem?_set_ne apart, there]

theorem filled_of_results? {slots : List (String × Slot)} {results : List BatchResult}
    (filled : results? slots = some results) :
    ∀ slot ∈ slots, ∃ outcome, slot.2 = .filled outcome := by
  induction slots generalizing results with
  | nil => simp
  | cons first rest ih =>
    obtain ⟨sql, slot⟩ := first
    cases slot with
    | unsubmitted | running => cases filled
    | filled outcome =>
      obtain ⟨others, found, -⟩ := Option.map_eq_some_iff.mp filled
      intro slot listed
      rcases List.mem_cons.mp listed with rfl | later
      · exact ⟨outcome, rfl⟩
      · exact ih found slot later

/-- A flight in the air after a step is led by the caller, or it was in the air before and led by
another. -/
theorem Caller.Step.leads (step : Caller.Step room w now caller next v) {j : Nat}
    (inAir : v.InAir j) : next.Leads j ∨ w.InAir j ∧ ¬caller.Leads j := by
  cases step with
  | enter call => exact .inr ⟨inAir, id⟩
  | advance advanced =>
    exact (advance?_leads advanced inAir).imp id fun ⟨other, before⟩ => ⟨before, other⟩
  | answer t result => exact .inr ⟨inAir, nofun⟩
  | @submit format slots i sql slot found taken =>
    by_cases leads : (Caller.collecting format slots).Leads j
    · exact .inl (leads_set found nofun slot leads)
    · exact .inr ⟨inAir, leads⟩
  | @work format slots i sql phase later _ found advanced =>
    rcases advance?_leads advanced inAir with rfl | ⟨other, before⟩
    · exact .inl ⟨_, List.mem_set (List.getElem?_eq_some_iff.mp found).1 _, rfl⟩
    · by_cases leads : (Caller.collecting format slots).Leads j
      · exact .inl (leads_set found (fun same => other (Slot.running.inj same)) _ leads)
      · exact .inr ⟨before, leads⟩
  | @fill format slots i sql result found =>
    by_cases leads : (Caller.collecting format slots).Leads j
    · exact .inl (leads_set found nofun _ leads)
    · exact .inr ⟨inAir, leads⟩
  | collect format filled =>
    refine .inr ⟨inAir, ?_⟩
    rintro ⟨slot, listed, leader⟩
    obtain ⟨outcome, same⟩ := filled_of_results? filled slot listed
    cases same.symm.trans leader

/-! ### Runs end -/

def Slot.rank : Slot → Nat
  | unsubmitted => 6
  | running phase => phase.rank + 1
  | filled _ => 0

/-- The steps that a call takes at most. -/
def Call.bound : Call → Nat
  | convert _ _ => 6
  | batch statements _ => 6 * statements.length + 2

/-- The steps that a caller and its workers have left at most. -/
def Caller.rank : Caller → Nat
  | asked call => call.bound
  | converting _ phase => phase.rank + 1
  | collecting _ slots => (slots.map fun slot => slot.2.rank).sum + 1
  | answered _ => 0

theorem sum_map_set {α : Type} (f : α → Nat) {l : List α} {k : Nat} {a : α} (found : l[k]? = some a)
    (b : α) : ((l.set k b).map f).sum + f a = (l.map f).sum + f b := by
  induction l generalizing k with
  | nil => simp at found
  | cons x l ih =>
    cases k with
    | zero =>
      obtain rfl : x = a := by simpa using found
      simp only [List.set_cons_zero, List.map_cons, List.sum_cons]
      omega
    | succ k =>
      have rest := ih (k := k) (by simpa using found)
      simp only [List.set_cons_succ, List.map_cons, List.sum_cons]
      omega

theorem rank_set_lt {format : Format} {slots : List (String × Slot)} {i : Nat} {sql : String}
    {before slot : Slot} (found : slots[i]? = some (sql, before)) (less : slot.rank < before.rank) :
    (Caller.collecting format (slots.set i (sql, slot))).rank <
      (Caller.collecting format slots).rank := by
  have sums := sum_map_set (fun slot => slot.2.rank) found (sql, slot)
  simp only [Caller.rank] at sums ⊢
  omega

theorem Caller.Step.rank_lt (step : Caller.Step room w now caller next v) :
    next.rank < caller.rank := by
  cases step with
  | enter call =>
    cases call with
    | convert sql name =>
      simp only [Caller.enter]
      split <;> simp [Caller.rank, Call.bound, Phase.rank]
    | batch statements name =>
      simp only [Caller.enter]
      split
      · have sum : ((statements.map fun sql => (sql, Slot.unsubmitted)).map
            fun slot => slot.2.rank).sum = 6 * statements.length := by
          simp [Function.comp_def, Slot.rank, List.map_const', Nat.mul_comm]
        simp only [Caller.rank, sum, Call.bound]
        omega
      · simp [Caller.rank, Call.bound]
  | advance advanced => exact Nat.add_lt_add_right (advance?_rank advanced) 1
  | answer t result => simp [Caller.rank]
  | @submit format slots i sql slot found taken =>
    refine rank_set_lt found ?_
    simp only [submit?] at taken
    split at taken
    next =>
      cases taken
      simp [Slot.rank]
    next =>
      split at taken <;> cases taken
      simp [Slot.rank, Phase.rank]
  | work found advanced =>
    exact rank_set_lt found (Nat.add_lt_add_right (advance?_rank advanced) 1)
  | fill format found => exact rank_set_lt found (by simp [Slot.rank])
  | collect format filled => simp [Caller.rank]

/-! ### Nobody waits for ever -/

/-- The caller or one of its workers can move. -/
def Caller.CanMove (room : Bool) (w : World) (now : Int) (caller : Caller) : Prop :=
  ∃ actor, (caller.step? room w now actor).isSome = true

/-- A conversion that can take a step lets its caller move. -/
theorem canMove_converting {t : Task} {phase : Phase}
    (free : (w.advance? now t phase).isSome = true) :
    (Caller.converting t phase).CanMove room w now := by
  refine ⟨none, ?_⟩
  simp only [Caller.step?]
  split
  · rfl
  · rwa [Option.isSome_map]

theorem canMove_collecting {format : Format} {slots : List (String × Slot)} {i : Nat} {sql : String}
    {phase : Phase} (found : slots[i]? = some (sql, .running phase))
    (free : phase.result?.isSome = true ∨ (w.advance? now ⟨sql, format⟩ phase).isSome = true) :
    (Caller.collecting format slots).CanMove room w now := by
  refine ⟨some i, ?_⟩
  simp only [Caller.step?, found]
  split
  next => rfl
  next running =>
    rw [Option.isSome_map]
    exact free.resolve_left (by simp [running])

theorem canMove_of_leads {j : Nat} (leads : caller.Leads j) : caller.CanMove room w now := by
  cases caller with
  | converting t phase =>
    obtain rfl : phase = .leading j := leads
    exact canMove_converting rfl
  | collecting format slots =>
    obtain ⟨⟨sql, slot⟩, listed, leader⟩ := leads
    obtain rfl : slot = .running (.leading j) := leader
    obtain ⟨i, found⟩ := List.getElem?_of_mem listed
    exact canMove_collecting found (.inr rfl)
  | asked | answered => exact leads.elim

/-- A busy worker can move, or it waits for a flight. -/
theorem canMove_of_running {format : Format} {slots : List (String × Slot)}
    (right : ∀ slot ∈ slots, slot.2.Sound w ⟨slot.1, format⟩) {sql : String} {phase : Phase}
    (listed : (sql, .running phase) ∈ slots) :
    (Caller.collecting format slots).CanMove room w now ∨ ∃ j, w.InAir j := by
  obtain ⟨i, found⟩ := List.getElem?_of_mem listed
  have own : phase.Sound w ⟨sql, format⟩ := right _ listed
  rcases isSome_advance? own now with free | ⟨result, rfl⟩ | flight
  · exact .inl (canMove_collecting found (.inr free))
  · exact .inl (canMove_collecting found (.inl rfl))
  · exact .inr flight

/-- Without places that wait for a worker, a batch is complete or keeps a worker busy. -/
theorem isSome_results? {slots : List (String × Slot)}
    (submitted : ∀ slot ∈ slots, slot.2.isUnsubmitted = false) :
    (results? slots).isSome = true ∨ ∃ sql phase, (sql, Slot.running phase) ∈ slots := by
  induction slots with
  | nil => exact .inl rfl
  | cons first rest ih =>
    obtain ⟨sql, slot⟩ := first
    cases slot with
    | unsubmitted => exact absurd (submitted _ List.mem_cons_self) (by simp [Slot.isUnsubmitted])
    | running phase => exact .inr ⟨sql, phase, List.mem_cons_self⟩
    | filled outcome =>
      rcases ih fun slot listed => submitted slot (List.mem_cons_of_mem _ listed) with
        complete | ⟨other, phase, listed⟩
      · left
        rwa [results?, Option.isSome_map]
      · exact .inr ⟨other, phase, List.mem_cons_of_mem _ listed⟩

/-- What can stop a caller that has no answer: a flight in the air, or a pool without room. -/
theorem canMove_or_waits (serves : Serves s w call caller)
    (pending : ∀ answer, caller ≠ .answered answer) :
    caller.CanMove room w now ∨ (∃ j, w.InAir j) ∨ room = false := by
  cases serves with
  | asked => exact .inl ⟨none, rfl⟩
  | @converting sql name format phase resolved right =>
    rcases isSome_advance? right now with free | ⟨result, rfl⟩ | flight
    · exact .inl (canMove_converting free)
    · exact .inl ⟨none, rfl⟩
    · exact .inr (.inl flight)
  | @collecting statements name format slots resolved named right =>
    cases place : slots.findIdx? (·.2.isUnsubmitted) with
    | some i =>
      obtain ⟨sql, found⟩ := Caller.exists_of_findIdx? place
      by_cases free : room = true
      · left
        refine ⟨none, ?_⟩
        obtain ⟨slot, taken⟩ : ∃ slot, submit? w.service room = some slot := by
          simp only [submit?, free, if_true]
          split <;> exact ⟨_, rfl⟩
        simp [Caller.step?, place, found, taken]
      · exact .inr (.inr (by simpa using free))
    | none =>
      have submitted := List.findIdx?_eq_none_iff.mp place
      rcases isSome_results? submitted with complete | ⟨sql, phase, listed⟩
      · left
        refine ⟨none, ?_⟩
        simp only [Caller.step?, place]
        rwa [Option.isSome_map]
      · exact (canMove_of_running right listed).imp_right .inl
  | answered => exact absurd rfl (pending _)

end

/-! ### Runs -/

namespace Machine

variable {s : Service} {calls : List Call}

/-- What holds in every state that a run reaches. -/
structure Sound (s : Service) (calls : List Call) (m : Machine) : Prop where
  world : m.world.Sound (calls.flatMap (·.tasks s))
  settings : ∃ cache, m.world.service = { s with cache }
  count : m.callers.length = calls.length
  callers : ∀ (k : Nat) (call : Call) (caller : Caller), calls[k]? = some call →
    m.callers[k]? = some caller → Serves s m.world call caller
  leaders : ∀ j, m.world.InAir j → ∃ caller ∈ m.callers, caller.Leads j

/-- The steps that are left at most. -/
def rank (m : Machine) : Nat := (m.callers.map Caller.rank).sum

/-- A move is a step of one caller; the others see at most a changed world. -/
theorem step?_eq_some {m n : Machine} {now : Int} {move : Move}
    (stepped : m.step? now move = some n) :
    ∃ caller next, m.callers[move.caller]? = some caller ∧
      Caller.Step m.hasRoom m.world now caller next n.world ∧
      n.callers = m.callers.set move.caller next := by
  simp only [step?, Option.bind_eq_bind, Option.bind_eq_some_iff, Option.pure_def,
    Option.some.injEq] at stepped
  obtain ⟨caller, found, ⟨next, world⟩, taken, rfl⟩ := stepped
  exact ⟨caller, next, found, Caller.step_of_step? taken, rfl⟩

theorem rank_lt_of_step? {m n : Machine} {now : Int} {move : Move}
    (stepped : m.step? now move = some n) : n.rank < m.rank := by
  obtain ⟨caller, next, found, step, set⟩ := step?_eq_some stepped
  have less := step.rank_lt
  have sums := sum_map_set Caller.rank found next
  rw [rank, rank, set]
  omega

theorem sound_start (s : Service) (calls : List Call)
    (empty : ∀ cache ∈ s.cache, cache.entries.entries = []) : (start s calls).Sound s calls := by
  refine ⟨⟨fun cache on entry held => ?_, by simp [start]⟩, ⟨s.cache, rfl⟩, by simp [start], ?_, ?_⟩
  · rw [empty cache on] at held
    simp at held
  · intro k call caller asked found
    obtain rfl : .asked call = caller := by simpa [start, asked] using found
    exact .asked call
  · rintro j ⟨flight, found, -⟩
    simp [start] at found

/-- One move keeps everything right. -/
theorem sound_of_step? (agree : Agree (calls.flatMap (·.tasks s))) (accepting : s.accepting = true)
    {m n : Machine} (sound : m.Sound s calls) {now : Int} {move : Move}
    (stepped : m.step? now move = some n) : n.Sound s calls := by
  obtain ⟨caller, next, found, step, set⟩ := step?_eq_some stepped
  obtain ⟨inside, here⟩ := List.getElem?_eq_some_iff.mp found
  obtain ⟨call, asked⟩ : ∃ call, calls[move.caller]? = some call :=
    ⟨_, List.getElem?_eq_getElem (sound.count ▸ inside)⟩
  have member : ∀ t ∈ call.tasks s, t ∈ calls.flatMap (·.tasks s) := fun t own =>
    List.mem_flatMap.mpr ⟨call, List.mem_of_getElem? asked, own⟩
  obtain ⟨world, serves, extension⟩ := (sound.callers _ _ _ asked found).step agree accepting
    sound.settings sound.world member step
  refine ⟨world, ?_, by rw [set, List.length_set, sound.count], ?_, ?_⟩
  · obtain ⟨cache, same⟩ := sound.settings
    obtain ⟨later, after⟩ := extension.service
    exact ⟨later, by rw [after, same]⟩
  · intro k other seen asked' found'
    rw [set] at found'
    by_cases same : move.caller = k
    · subst same
      rw [List.getElem?_set_self inside] at found'
      obtain rfl := Option.some.inj found'
      obtain rfl := Option.some.inj (asked.symm.trans asked')
      exact serves
    · rw [List.getElem?_set_ne same] at found'
      exact (sound.callers k other seen asked' found').mono extension
  · intro j inAir
    rw [set]
    rcases step.leads inAir with leads | ⟨before, other⟩
    · exact ⟨next, List.mem_set inside next, leads⟩
    · obtain ⟨leader, listed, leads⟩ := sound.leaders j before
      obtain ⟨k, there⟩ := List.getElem?_of_mem listed
      have apart : move.caller ≠ k := by
        rintro rfl
        obtain rfl := Option.some.inj (found.symm.trans there)
        exact other leads
      refine ⟨leader, List.mem_of_getElem? (i := k) ?_, leads⟩
      rw [List.getElem?_set_ne apart, there]

/-- Move after move, by induction on the moves: every state is right, and each move uses up one of
the steps that are left. -/
theorem sound_of_run? (agree : Agree (calls.flatMap (·.tasks s))) (accepting : s.accepting = true)
    {m n : Machine} (sound : m.Sound s calls) {moves : List (Int × Move)}
    (ran : m.run? moves = some n) : n.Sound s calls ∧ moves.length + n.rank ≤ m.rank := by
  induction moves generalizing m with
  | nil =>
    obtain rfl : m = n := by simpa [run?] using ran
    exact ⟨sound, by simp⟩
  | cons move moves ih =>
    simp only [run?, List.foldlM_cons, Option.bind_eq_bind, Option.bind_eq_some_iff] at ran
    obtain ⟨middle, stepped, rest⟩ := ran
    obtain ⟨last, bound⟩ := ih (sound_of_step? agree accepting sound stepped) rest
    have less := rank_lt_of_step? stepped
    exact ⟨last, by simp only [List.length_cons]; omega⟩

/-- A pool without room has a busy worker. -/
theorem exists_running {m : Machine} (full : m.hasRoom = false) :
    ∃ format slots sql phase, Caller.collecting format slots ∈ m.callers ∧
      (sql, Slot.running phase) ∈ slots := by
  simp only [hasRoom, Bool.or_eq_false_iff, decide_eq_false_iff_not] at full
  have positive : 0 < (m.callers.map Caller.busy).sum := by omega
  obtain ⟨count, listed, nonzero⟩ := List.sum_pos_iff_exists_pos_nat.mp positive
  obtain ⟨caller, member, rfl⟩ := List.mem_map.mp listed
  cases caller with
  | collecting format slots =>
    obtain ⟨⟨sql, slot⟩, place, running⟩ := List.countP_pos_iff.mp nonzero
    cases slot with
    | running phase => exact ⟨format, slots, sql, phase, member, place⟩
    | unsubmitted | filled => cases running
  | asked | converting | answered => simp [Caller.busy] at nonzero

/-- Where nobody can move, everybody has an answer. -/
theorem answered_of_stuck {m : Machine} (sound : m.Sound s calls) {now : Int}
    (stuck : ∀ move, m.step? now move = none) :
    ∀ caller ∈ m.callers, ∃ answer, caller = .answered answer := by
  -- A caller that can move would be a move of the machine.
  have still : ∀ caller ∈ m.callers, ¬caller.CanMove m.hasRoom m.world now := by
    rintro caller listed ⟨actor, possible⟩
    obtain ⟨k, found⟩ := List.getElem?_of_mem listed
    obtain ⟨⟨next, world⟩, taken⟩ := Option.isSome_iff_exists.mp possible
    have moved := stuck ⟨k, actor⟩
    simp [step?, found, taken] at moved
  have grounded : ∀ j, ¬m.world.InAir j := by
    intro j inAir
    obtain ⟨leader, listed, leads⟩ := sound.leaders j inAir
    exact still leader listed (canMove_of_leads leads)
  have serving : ∀ caller ∈ m.callers, ∃ call, Serves s m.world call caller := by
    intro caller listed
    obtain ⟨k, found⟩ := List.getElem?_of_mem listed
    have inside : k < calls.length := sound.count ▸ (List.getElem?_eq_some_iff.mp found).1
    exact ⟨_, sound.callers k _ caller (List.getElem?_eq_getElem inside) found⟩
  -- So nothing is in the air, and a full pool would have a worker that can move.
  have room : m.hasRoom = true := by
    refine Decidable.byContradiction fun full => ?_
    obtain ⟨format, slots, sql, phase, listed, running⟩ := exists_running (by simpa using full)
    obtain ⟨call, serves⟩ := serving _ listed
    cases serves with
    | collecting resolved named right =>
      rcases canMove_of_running right running with moves | ⟨j, inAir⟩
      · exact still _ listed moves
      · exact grounded j inAir
  intro caller listed
  obtain ⟨call, serves⟩ := serving caller listed
  by_cases settled : ∃ answer, caller = .answered answer
  · exact settled
  · rcases canMove_or_waits serves fun answer same => settled ⟨answer, same⟩ with
      moves | ⟨j, inAir⟩ | full
    · exact absurd moves (still caller listed)
    · exact absurd inAir (grounded j)
    · exact absurd (full.symm.trans room) Bool.false_ne_true

end Machine

/-- A new service keeps nothing and takes batches. -/
theorem create_fresh {config : Config} {now : Int} {s : Service}
    (created : create config now = .ok s) :
    s.accepting = true ∧ ∀ cache ∈ s.cache, cache.entries.entries = [] := by
  unfold create at created
  cases level : Log.Level.parse config.logLevel with
  | error message =>
    simp [level, bind, Except.bind, throw, throwThe, MonadExceptOf.throw] at created
  | ok known =>
    simp only [level, bind, Except.bind, pure, Except.pure] at created
    split at created
    next => cases created
    next =>
      obtain rfl := Except.ok.inj created
      refine ⟨rfl, fun cache on => ?_⟩
      dsimp only at on
      split at on
      next => cases on
      next =>
        obtain rfl := Option.some.inj on
        rfl

/-- Callers of a new service may ask for single statements and batches in any order, and their steps
and those of the workers may come in any order and at any moments. Each answer is the one of its
call with every statement converted on its own, a batch in the order of its statements. A run has
a bounded number of steps, and when no step is left everybody has an answer. A caller that comes
alone, between the steps of the others, is answered the same. -/
theorem answers_of_run (config : Config) (started : Int) (s : Service)
    (created : create config started = .ok s) (calls : List Call)
    (free : CollisionFree ((calls.flatMap (·.tasks s)).map fun t => keyText t.format.name t.sql))
    (moves : List (Int × Move)) (m : Machine) (ran : (Machine.start s calls).run? moves = some m) :
    (∀ (k : Nat) (call : Call) (answer : Answer), calls[k]? = some call →
      m.callers[k]? = some (.answered answer) → answer = call.answer s) ∧
    m.callers.length = calls.length ∧ moves.length ≤ (calls.map Call.bound).sum ∧
    (∀ now, (∀ move, m.step? now move = none) →
      ∀ caller ∈ m.callers, ∃ answer, caller = .answered answer) ∧
    ∀ t ∈ calls.flatMap (·.tasks s), ∀ now,
      (m.world.service.convertIn now t.sql t.format).1 =
        SqlToMongo.convert t.sql t.format.name := by
  have agree := agree_of_collisionFree free
  obtain ⟨accepting, empty⟩ := create_fresh created
  obtain ⟨sound, bound⟩ :=
    Machine.sound_of_run? agree accepting (Machine.sound_start s calls empty) ran
  refine ⟨?_, sound.count, ?_, fun now stuck => Machine.answered_of_stuck sound stuck, ?_⟩
  · intro k call answer asked found
    have serves := sound.callers k call _ asked found
    cases serves
    rfl
  · have total : (Machine.start s calls).rank = (calls.map Call.bound).sum := by
      simp [Machine.rank, Machine.start, Function.comp_def, Caller.rank]
    omega
  · exact fun t member now => convertIn_sound agree member sound.world

/-- A caller is joined in the air by a worker with the same statement in another layout, and the
worker's batch holds a statement that is refused. -/
theorem answers_of_run_shared :
    let calls : List Call :=
      [.convert "SELECT * FROM t" "", .batch ["SELECT *  FROM t;", "DROP t"] "Shell"]
    let moves : List (Int × Move) :=
      [(0, ⟨0, none⟩), (0, ⟨0, none⟩), (0, ⟨0, none⟩), (1, ⟨1, none⟩), (1, ⟨1, none⟩),
       (1, ⟨1, some 0⟩), (1, ⟨1, some 0⟩), (2, ⟨0, none⟩), (2, ⟨1, some 0⟩), (2, ⟨0, none⟩),
       (2, ⟨0, none⟩), (3, ⟨1, some 0⟩), (3, ⟨1, some 0⟩), (3, ⟨1, none⟩), (4, ⟨1, some 1⟩),
       (4, ⟨1, some 1⟩), (4, ⟨1, some 1⟩), (4, ⟨1, some 1⟩), (4, ⟨1, some 1⟩), (4, ⟨1, none⟩)]
    ∃ s m, create { workers := 1 } 0 = .ok s ∧ (Machine.start s calls).run? moves = some m ∧
      m.callers = calls.map fun call => .answered (call.answer s) := by
  intro calls moves
  let s : Service :=
    ⟨{ workers := 1 }, .shell, some (Memory.create 1000 3600), none, true⟩
  have created : create { workers := 1 } 0 = .ok s := by rfl
  have free : CollisionFree
      ((calls.flatMap (·.tasks s)).map fun t => keyText t.format.name t.sql) := by decide +kernel
  have ended : ((Machine.start s calls).run? moves).any (fun m => m.callers.all fun
      | .answered _ => true
      | _ => false) = true := by decide +kernel
  obtain ⟨m, ran, answered⟩ := (Option.any_eq_true _ _).mp ended
  obtain ⟨right, count, -⟩ := answers_of_run { workers := 1 } 0 s created calls free moves m ran
  refine ⟨s, m, created, ran, List.ext_getElem (by simp [count]) fun k inside asked => ?_⟩
  have settled := List.all_eq_true.mp answered m.callers[k] (List.getElem_mem inside)
  cases here : m.callers[k] with
  | answered answer =>
    rw [List.getElem_map, right k calls[k] answer (List.getElem?_eq_getElem _)
      (by rw [List.getElem?_eq_getElem inside, here])]
  | asked | converting | collecting => simp [here] at settled

end SqlToMongo.Service
