import SqlToMongo.Proofs.Cache.Memory
import SqlToMongo.Proofs.Converter.Runs
import SqlToMongo.Service.Basic

/-!
# Conversions that share a cache and flights

Conversions run at the same time on one service. Each looks its result up; on a miss it joins the
flight with its key that is in the air, or starts one and converts the statement itself; then it
keeps the result. Between two steps of a conversion anything may happen to the cache and to the
flights: entries expire and are evicted, flights start and land.

What a conversion can see of the others is right all the same. Everything that is kept, and
everything that landed, is the outcome of a conversion that was asked for, under its key; and
conversions with one key have one outcome.

## Main results

`step_of_advance?`: what a step of a conversion can do.
`advance?_sound`: a step keeps cache, flights and results right.
-/

namespace SqlToMongo.Service

open Cache

/-! ### Steps -/

/-- A conversion in the air, or what it brought. Who asks for the key while it is in the air waits
for it. -/
structure Flight where
  key : String
  outcome : Option (Except ConvertError String)

def Flight.isOpen (flight : Flight) : Bool := flight.outcome.isNone

/-- What conversions share. -/
structure World where
  service : Service
  flights : List Flight

/-- How far a conversion is. -/
inductive Phase where
  | start
  | missed
  | leading (flight : Nat)
  | waiting (flight : Nat)
  | converted (result : Except ConvertError String)
  | finished (result : Except ConvertError String)

/-- A statement in a format. -/
structure Task where
  sql : String
  format : Format

namespace Task

def key (t : Task) : String := conversionKey t.format.name t.sql

/-- The conversion on its own. -/
def outcome (t : Task) : Except ConvertError String := SqlToMongo.convert t.sql t.format.name

end Task

namespace World

/-- The flight with a key that is in the air. -/
def openFlight? (w : World) (key : String) : Option Nat :=
  w.flights.findIdx? fun flight => flight.key == key && flight.isOpen

/-- A new flight is in the air. -/
def depart (w : World) (key : String) : World :=
  { w with flights := w.flights ++ [⟨key, none⟩] }

/-- A flight brings its outcome. -/
def land (w : World) (j : Nat) (result : Except ConvertError String) : World :=
  { w with flights := w.flights.modify j fun flight => { flight with outcome := some result } }

/-- One step of a conversion at a moment, if it is not over and does not have to wait. -/
def advance? (w : World) (now : Int) (t : Task) : Phase → Option (Phase × World)
  | .start =>
    match w.service.lookup now t.sql t.format with
    | (some text, service) => some (.finished (.ok text), { w with service })
    | (none, service) => some (.missed, { w with service })
  | .missed =>
    match w.openFlight? t.key with
    | some j => some (.waiting j, w)
    | none => some (.leading w.flights.length, w.depart t.key)
  | .leading j => some (.converted t.outcome, w.land j t.outcome)
  | .waiting j =>
    match w.flights[j]? with
    | some ⟨_, some result⟩ => some (.converted result, w)
    | _ => none
  | .converted (.ok text) =>
    some (.finished (.ok text), { w with service := w.service.keep now t.sql t.format text })
  | .converted (.error e) => some (.finished (.error e), w)
  | .finished _ => none

end World

/-! ### What conversions see -/

/-- Everything kept and everything landed is the outcome of one of the tasks, under its key. -/
structure World.Sound (tasks : List Task) (w : World) : Prop where
  kept : ∀ cache ∈ w.service.cache, ∀ entry ∈ cache.entries.entries, ∃ t ∈ tasks,
    entry.1 = t.key ∧ ∃ text, entry.2.value? = some text ∧ t.outcome = .ok text
  flights : ∀ flight ∈ w.flights, ∃ t ∈ tasks, flight.key = t.key ∧
    ∀ result ∈ flight.outcome, result = t.outcome

/-- A result is the task's own, and a flight that it leads or waits for has its key. -/
def Phase.Sound (w : World) (t : Task) : Phase → Prop
  | .start | .missed => True
  | .leading j | .waiting j => ∃ flight, w.flights[j]? = some flight ∧ flight.key = t.key
  | .converted result | .finished result => result = t.outcome

/-- What a step leaves as it is: the places and keys of the flights, and the service apart from what
it keeps. -/
structure World.Extends (w v : World) : Prop where
  flights : ∀ (j : Nat) (flight : Flight), w.flights[j]? = some flight →
    ∃ later : Flight, v.flights[j]? = some later ∧ later.key = flight.key
  service : ∃ cache, v.service = { w.service with cache }

/-- Tasks with one key have one outcome. -/
def Agree (tasks : List Task) : Prop :=
  ∀ a ∈ tasks, ∀ b ∈ tasks, a.key = b.key → a.outcome = b.outcome

theorem agree_of_collisionFree {tasks : List Task}
    (free : CollisionFree (tasks.map fun t => keyText t.format.name t.sql)) : Agree tasks := by
  intro a first b second same
  have texts : keyText a.format.name a.sql = keyText b.format.name b.sql :=
    free.eq_of_hexOf (List.mem_map.mpr ⟨a, first, rfl⟩) (List.mem_map.mpr ⟨b, second, rfl⟩) same
  exact convert_of_keyText (Converter.name_mem_knownFormats _) (Converter.name_mem_knownFormats _)
    texts

namespace World

theorem Extends.refl (w : World) : w.Extends w :=
  ⟨fun _ flight found => ⟨flight, found, rfl⟩, w.service.cache, rfl⟩

theorem extends_service (w : World) (cache : Option Memory) :
    w.Extends { w with service := { w.service with cache } } :=
  ⟨fun _ flight found => ⟨flight, found, rfl⟩, cache, rfl⟩

theorem exists_of_openFlight? {w : World} {key : String} {j : Nat}
    (found : w.openFlight? key = some j) :
    ∃ flight, w.flights[j]? = some flight ∧ flight.key = key := by
  obtain ⟨inside, own, -⟩ := List.findIdx?_eq_some_iff_getElem.mp found
  simp only [Bool.and_eq_true, beq_iff_eq] at own
  exact ⟨_, List.getElem?_eq_getElem inside, own.1⟩

theorem getElem?_depart {w : World} {key : String} {j : Nat} {flight : Flight}
    (found : (w.depart key).flights[j]? = some flight) :
    w.flights[j]? = some flight ∨ j = w.flights.length ∧ flight = ⟨key, none⟩ := by
  rcases Nat.lt_or_ge j w.flights.length with old | new
  · rw [depart, List.getElem?_append_left old] at found
    exact .inl found
  · rw [depart, List.getElem?_append_right new, List.getElem?_singleton] at found
    split at found
    next first => exact .inr ⟨by omega, (Option.some.inj found).symm⟩
    next => cases found

theorem extends_depart (w : World) (key : String) : w.Extends (w.depart key) := by
  refine ⟨fun j flight found => ⟨flight, ?_, rfl⟩, w.service.cache, rfl⟩
  rw [depart, List.getElem?_append_left (List.getElem?_eq_some_iff.mp found).1, found]

theorem getElem?_land (w : World) (i j : Nat) (result : Except ConvertError String) :
    (w.land i result).flights[j]? = w.flights[j]?.map fun flight =>
      if i = j then { flight with outcome := some result } else flight := by
  rw [land, List.getElem?_modify]
  rfl

theorem extends_land (w : World) (i : Nat) (result : Except ConvertError String) :
    w.Extends (w.land i result) := by
  refine ⟨fun j flight found => ?_, w.service.cache, rfl⟩
  rw [getElem?_land, found]
  refine ⟨_, rfl, ?_⟩
  split <;> rfl

end World

theorem Phase.Sound.mono {w v : World} (extension : w.Extends v) {t : Task} {phase : Phase}
    (sound : phase.Sound w t) : phase.Sound v t := by
  cases phase with
  | start | missed => trivial
  | leading j | waiting j =>
    obtain ⟨flight, found, key⟩ := sound
    obtain ⟨later, kept, same⟩ := extension.flights j flight found
    exact ⟨later, kept, same.trans key⟩
  | converted result | finished result => exact sound

/-! ### The service -/

section

variable {tasks : List Task} {w : World} {now : Int} {t : Task}

/-- A look-up gives the outcome of the task, and only forgets. -/
theorem lookup_sound (agree : Agree tasks) (member : t ∈ tasks) (sound : w.Sound tasks)
    {found : Option String} {service : Service}
    (looked : w.service.lookup now t.sql t.format = (found, service)) :
    (∀ text ∈ found, t.outcome = .ok text) ∧ World.Sound tasks { w with service } := by
  unfold lookup at looked
  split at looked
  next off =>
    obtain ⟨rfl, rfl⟩ := Prod.mk.inj looked
    exact ⟨by simp, sound⟩
  next cache on =>
    obtain ⟨rfl, rfl⟩ := Prod.mk.inj looked
    refine ⟨fun text given => ?_, fun later on' entry held => ?_, sound.flights⟩
    · -- The entry may have been kept for another task with the same key.
      obtain ⟨entry, held, value⟩ := Memory.mem_of_get given
      obtain ⟨other, listed, key, kept, read, outcome⟩ := sound.kept cache on _ held
      obtain rfl : kept = text := Option.some.inj (read.symm.trans value)
      rw [agree t member other listed key, outcome]
    · obtain rfl := Option.some.inj on'
      exact sound.kept cache on entry (Memory.mem_of_mem_get held)

theorem extends_of_lookup {found : Option String} {service : Service}
    (looked : w.service.lookup now t.sql t.format = (found, service)) :
    w.Extends { w with service } := by
  unfold lookup at looked
  split at looked
  · obtain ⟨-, rfl⟩ := Prod.mk.inj looked
    exact .refl w
  · obtain ⟨-, rfl⟩ := Prod.mk.inj looked
    exact w.extends_service _

theorem keep_sound (member : t ∈ tasks) (sound : w.Sound tasks) {text : String}
    (outcome : t.outcome = .ok text) :
    World.Sound tasks { w with service := w.service.keep now t.sql t.format text } := by
  refine ⟨fun cache on entry held => ?_, sound.flights⟩
  obtain ⟨before, on', rfl⟩ := Option.map_eq_some_iff.mp on
  rcases Memory.mem_of_mem_set held with ⟨key, value⟩ | old
  · exact ⟨t, member, key, text, value, outcome⟩
  · exact sound.kept before on' entry old

/-- A conversion that nothing comes between, from the look-up to the end. -/
theorem convertIn_sound (agree : Agree tasks) (member : t ∈ tasks) (sound : w.Sound tasks) :
    (w.service.convertIn now t.sql t.format).1 = t.outcome := by
  cases looked : w.service.lookup now t.sql t.format with
  | mk found service =>
    obtain ⟨given, -⟩ := lookup_sound agree member sound looked
    cases found with
    | some text => simp only [convertIn, looked, given text rfl]
    | none =>
      cases outcome : SqlToMongo.convert t.sql t.format.name <;>
        simp only [convertIn, looked, outcome, Task.outcome]

theorem depart_sound (member : t ∈ tasks) (sound : w.Sound tasks) :
    (w.depart t.key).Sound tasks := by
  refine ⟨sound.kept, fun flight listed => ?_⟩
  rcases List.mem_append.mp listed with old | new
  · exact sound.flights flight old
  · obtain rfl := List.mem_singleton.mp new
    exact ⟨t, member, rfl, by simp⟩

theorem land_sound (member : t ∈ tasks) (sound : w.Sound tasks) {j : Nat}
    (led : ∃ flight, w.flights[j]? = some flight ∧ flight.key = t.key) :
    (w.land j t.outcome).Sound tasks := by
  refine ⟨sound.kept, fun flight listed => ?_⟩
  obtain ⟨i, found⟩ := List.getElem?_of_mem listed
  rw [World.getElem?_land] at found
  obtain ⟨before, there, rfl⟩ := Option.map_eq_some_iff.mp found
  split
  next same =>
    obtain ⟨own, there', key⟩ := led
    obtain rfl : own = before := Option.some.inj (there'.symm.trans (same ▸ there))
    exact ⟨t, member, key, by simp⟩
  next => exact sound.flights before (List.mem_of_getElem? there)

/-! ### Steps of a conversion -/

/-- What a step of a conversion can do. -/
inductive Step (w : World) (now : Int) (t : Task) : Phase → Phase → World → Prop where
  | hit {text : String} {service : Service}
      (looked : w.service.lookup now t.sql t.format = (some text, service)) :
      Step w now t .start (.finished (.ok text)) { w with service }
  | miss {service : Service} (looked : w.service.lookup now t.sql t.format = (none, service)) :
      Step w now t .start .missed { w with service }
  | join {j : Nat} (found : w.openFlight? t.key = some j) : Step w now t .missed (.waiting j) w
  | lead : Step w now t .missed (.leading w.flights.length) (w.depart t.key)
  | land (j : Nat) : Step w now t (.leading j) (.converted t.outcome) (w.land j t.outcome)
  | share {j : Nat} {key : String} {result : Except ConvertError String}
      (landed : w.flights[j]? = some ⟨key, some result⟩) :
      Step w now t (.waiting j) (.converted result) w
  | keep (text : String) : Step w now t (.converted (.ok text)) (.finished (.ok text))
      { w with service := w.service.keep now t.sql t.format text }
  | fail (e : ConvertError) : Step w now t (.converted (.error e)) (.finished (.error e)) w

theorem step_of_advance? {phase next : Phase} {v : World}
    (step : w.advance? now t phase = some (next, v)) : Step w now t phase next v := by
  cases phase with
  | start =>
    simp only [World.advance?] at step
    split at step
    next looked =>
      cases step
      exact .hit looked
    next looked =>
      cases step
      exact .miss looked
  | missed =>
    simp only [World.advance?] at step
    split at step
    next found =>
      cases step
      exact .join found
    next =>
      cases step
      exact .lead
  | leading j =>
    cases step
    exact .land j
  | waiting j =>
    simp only [World.advance?] at step
    split at step
    next landed =>
      cases step
      exact .share landed
    next => cases step
  | converted result =>
    cases result with
    | ok text =>
      cases step
      exact .keep text
    | error e =>
      cases step
      exact .fail e
  | finished result => cases step

/-- A step keeps what conversions see right. -/
theorem advance?_sound (agree : Agree tasks) (member : t ∈ tasks) (sound : w.Sound tasks)
    {phase next : Phase} (right : phase.Sound w t) {v : World}
    (step : w.advance? now t phase = some (next, v)) :
    v.Sound tasks ∧ next.Sound v t ∧ w.Extends v := by
  cases step_of_advance? step with
  | hit looked =>
    obtain ⟨given, after⟩ := lookup_sound agree member sound looked
    exact ⟨after, (given _ rfl).symm, extends_of_lookup looked⟩
  | miss looked =>
    obtain ⟨_, after⟩ := lookup_sound agree member sound looked
    exact ⟨after, trivial, extends_of_lookup looked⟩
  | join found => exact ⟨sound, World.exists_of_openFlight? found, .refl w⟩
  | lead =>
    have departed : (w.depart t.key).flights[w.flights.length]? = some ⟨t.key, none⟩ := by
      simp [World.depart]
    exact ⟨depart_sound member sound, ⟨_, departed, rfl⟩, w.extends_depart t.key⟩
  | land j => exact ⟨land_sound member sound right, rfl, w.extends_land j t.outcome⟩
  | @share j _ result landed =>
    -- The flight has the key of the conversion, so what it brought is the conversion's own outcome.
    obtain ⟨flight, found, key⟩ := right
    obtain rfl := Option.some.inj (landed.symm.trans found)
    obtain ⟨other, listed, same, brought⟩ := sound.flights _ (List.mem_of_getElem? found)
    have outcome : other.outcome = t.outcome := agree other listed t member (same.symm.trans key)
    exact ⟨sound, (brought result rfl).trans outcome, .refl w⟩
  | keep text => exact ⟨keep_sound member sound right.symm, right, w.extends_service _⟩
  | fail e => exact ⟨sound, right, .refl w⟩

/-- The steps that are left. -/
def Phase.rank : Phase → Nat
  | .start => 4
  | .missed => 3
  | .leading _ | .waiting _ => 2
  | .converted _ => 1
  | .finished _ => 0

theorem advance?_rank {phase next : Phase} {v : World}
    (step : w.advance? now t phase = some (next, v)) : next.rank < phase.rank := by
  cases step_of_advance? step <;> simp [Phase.rank]

/-- A flight has not landed. -/
def World.InAir (w : World) (j : Nat) : Prop :=
  ∃ flight : Flight, w.flights[j]? = some flight ∧ flight.isOpen = true

/-- A flight that is in the air after a step is led by the step's conversion, or was in the air
before and is not the one that it led. -/
theorem advance?_leads {phase next : Phase} {v : World}
    (step : w.advance? now t phase = some (next, v)) {j : Nat} (inAir : v.InAir j) :
    next = .leading j ∨ phase ≠ .leading j ∧ w.InAir j := by
  obtain ⟨flight, found, aloft⟩ := inAir
  cases step_of_advance? step with
  | lead =>
    rcases World.getElem?_depart found with old | ⟨rfl, -⟩
    · exact .inr ⟨nofun, flight, old, aloft⟩
    · exact .inl rfl
  | land i =>
    rw [World.getElem?_land] at found
    obtain ⟨before, there, rfl⟩ := Option.map_eq_some_iff.mp found
    -- Its own flight has landed, so the one in the air is another.
    by_cases own : i = j
    · simp [own, Flight.isOpen] at aloft
    · rw [if_neg own] at aloft
      exact .inr ⟨fun same => own (Phase.leading.inj same), before, there, aloft⟩
  | hit | miss | join | share | keep | fail => exact .inr ⟨nofun, flight, found, aloft⟩

/-- Only the end and a flight in the air stop a conversion. -/
theorem isSome_advance? {phase : Phase} (right : phase.Sound w t) (now : Int) :
    (w.advance? now t phase).isSome = true ∨ (∃ result, phase = .finished result) ∨
      ∃ j, w.InAir j := by
  cases phase with
  | start =>
    left
    simp only [World.advance?]
    split <;> rfl
  | missed =>
    left
    simp only [World.advance?]
    split <;> rfl
  | leading j => exact .inl rfl
  | waiting j =>
    obtain ⟨flight, found, -⟩ := right
    obtain ⟨key, outcome⟩ := flight
    cases outcome with
    | none => exact .inr (.inr ⟨j, ⟨key, none⟩, found, rfl⟩)
    | some result =>
      left
      simp [World.advance?, found]
  | converted result => cases result <;> exact .inl rfl
  | finished result => exact .inr (.inl ⟨result, rfl⟩)

end

end SqlToMongo.Service
