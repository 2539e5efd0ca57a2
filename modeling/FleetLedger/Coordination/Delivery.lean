import FleetLedger.Coordination.Event

/-!
# Delivery to a watcher

Between the place where changes are made and the watcher that is told of them stands a forwarder.
What there is to look at waits in a line; the forwarder looks at one item after the other, passes on
the event that it stands for, if it stands for one that concerns the watcher, and skips it otherwise.
The watcher takes delivered events at its own pace.  There is room for only so many of them, and a
forwarder that finds no room holds on to its event and looks no further.

The line of waiting items may have a limit.  A forwarder that finds more of them than that has missed
some: it says so in a last event and ends.  It ends as well when its source has ended and nothing
waits any more.  Nothing is delivered after the last event.

`step?` is one action of the forwarder; `settle` lets it act until it has to wait; `drain` does so
while the watcher takes everything.  Each action lowers the `load`, so both come to an end.
-/

namespace FleetLedger

/-- What a forwarder is about to do. -/
inductive Delivery.Phase where
  /-- It looks at the next item. -/
  | looking
  /-- It delivers an event as soon as there is room. -/
  | holding (event : Event)
  /-- It delivers the last event as soon as there is room. -/
  | closing (reason : String)
  | ended
  deriving Repr, DecidableEq

/-- The state of the delivery to one watcher. -/
structure Delivery (α : Type) where
  /-- What was not looked at yet. -/
  waiting : List α := []
  phase : Delivery.Phase := .looking
  /-- What was delivered and not taken yet. -/
  delivered : List Event := []
  /-- Why the source has ended, if it has. -/
  sourceEnd : Option String := none

/-- The rules of a forwarder. -/
structure Delivery.Rules (α : Type) where
  /-- The event to pass on for an item. -/
  pick : α → Option Event
  /-- How many items may wait; none for any number. -/
  limit : Option Nat := none

namespace Delivery

variable {α : Type}

/-- How many delivered events there is room for. -/
def room : Nat := 256

/-- What a watcher is told that missed something. -/
def behindReason (skipped : Nat) : String :=
  "watcher lagged behind by " ++ toString skipped ++ " changes"

/-- How many items were missed. -/
def skipped? (r : Rules α) (d : Delivery α) : Option Nat :=
  r.limit.bind fun limit =>
    if limit < d.waiting.length then some (d.waiting.length - limit) else none

/-- What becomes of an item that was looked at. -/
def phaseAfter (r : Rules α) (item : α) : Phase :=
  match r.pick item with
  | some e => .holding e
  | none => .looking

/-- One look at what waits. -/
def look? (r : Rules α) (d : Delivery α) : Option (Delivery α × Option Nat) :=
  match d.skipped? r with
  | some n => some ({ d with waiting := [], phase := .closing (behindReason n) }, some n)
  | none =>
    match d.waiting, d.sourceEnd with
    | item :: rest, _ => some ({ d with waiting := rest, phase := phaseAfter r item }, none)
    | [], some reason => some ({ d with phase := .closing reason }, none)
    | [], none => none

/-- Delivers an event, if there is room. -/
def deliver? (d : Delivery α) (e : Event) (phase : Phase) : Option (Delivery α) :=
  if d.delivered.length < room then some { d with phase, delivered := d.delivered ++ [e] } else none

/-- One action of the forwarder, and how many items it found to be missed; none while it has to
wait. -/
def step? (r : Rules α) (d : Delivery α) : Option (Delivery α × Option Nat) :=
  match d.phase with
  | .looking => d.look? r
  | .holding e => (d.deliver? e .looking).map (·, none)
  | .closing reason => (d.deliver? (.closed reason) .ended).map (·, none)
  | .ended => none

/-! ## The load -/

/-- How far a phase is from the end. -/
def Phase.rank : Phase → Nat
  | ended => 0
  | closing _ => 1
  | looking => 2
  | holding _ => 3

/-- What there is left to do: each item can be looked at, held and taken. -/
def load (d : Delivery α) : Nat :=
  4 * d.waiting.length + 2 * d.phase.rank + d.delivered.length

/-- A look lowers the load. -/
theorem load_of_look? {r : Rules α} {d d' : Delivery α} {n : Option Nat} (hp : d.phase = .looking)
    (h : d.look? r = some (d', n)) : d'.load < d.load := by
  unfold look? at h
  split at h
  · rename_i k hk
    have hpos : 0 < d.waiting.length := by
      cases hw : d.waiting with
      | nil => simp [skipped?, hw] at hk
      | cons => simp
    simp only [Option.some.injEq, Prod.mk.injEq] at h
    obtain ⟨rfl, -⟩ := h
    simp only [load, hp, Phase.rank, List.length_nil]
    omega
  · split at h
    · rename_i item rest hw
      simp only [Option.some.injEq, Prod.mk.injEq] at h
      obtain ⟨rfl, -⟩ := h
      have hrank : (phaseAfter r item).rank ≤ 3 := by
        unfold phaseAfter; split <;> simp [Phase.rank]
      have hlooking : Phase.looking.rank = 2 := rfl
      simp only [load, hp, hlooking, hw, List.length_cons]
      omega
    · simp only [Option.some.injEq, Prod.mk.injEq] at h
      obtain ⟨rfl, -⟩ := h
      simp only [load, hp, Phase.rank]
      omega
    · cases h

/-- Every action lowers the load. -/
theorem load_of_step? {r : Rules α} {d d' : Delivery α} {n : Option Nat}
    (h : d.step? r = some (d', n)) : d'.load < d.load := by
  unfold step? at h
  split at h
  · rename_i hp
    exact load_of_look? hp h
  · rename_i e hp
    simp only [deliver?, Option.map_eq_some_iff] at h
    obtain ⟨x, hx, heq⟩ := h
    split at hx
    · simp only [Option.some.injEq] at hx
      simp only [Prod.mk.injEq] at heq
      obtain ⟨rfl, -⟩ := heq
      subst hx
      simp only [load, hp, Phase.rank, List.length_append, List.length_singleton]
      omega
    · cases hx
  · rename_i reason hp
    simp only [deliver?, Option.map_eq_some_iff] at h
    obtain ⟨x, hx, heq⟩ := h
    split at hx
    · simp only [Option.some.injEq] at hx
      simp only [Prod.mk.injEq] at heq
      obtain ⟨rfl, -⟩ := heq
      subst hx
      simp only [load, hp, Phase.rank, List.length_append, List.length_singleton]
      omega
    · cases hx
  · cases h

/-! ## Running -/

/-- Lets the forwarder act until it has to wait; the numbers of missed items that it found. -/
def settle (r : Rules α) (d : Delivery α) : Delivery α × List Nat :=
  match _h : d.step? r with
  | none => (d, [])
  | some (next, missed) =>
    let (last, more) := next.settle r
    (last, missed.toList ++ more)
termination_by d.load
decreasing_by exact load_of_step? ‹_›

/-- Settling never raises the load. -/
theorem load_settle (r : Rules α) (d : Delivery α) : (d.settle r).1.load ≤ d.load := by
  fun_induction settle r d with
  | case1 d h => exact Nat.le_refl _
  | case2 d next missed h last more heq ih =>
    rw [heq] at ih
    have := load_of_step? h
    exact Nat.le_of_lt (Nat.lt_of_le_of_lt ih this)

/-- The watcher takes everything that can be delivered to it; what it took, and the numbers of missed
items that the forwarder found meanwhile. -/
def drain (r : Rules α) (d : Delivery α) : List Event × Delivery α × List Nat :=
  match _h : d.settle r with
  | (settled, missed) =>
    match _hd : settled.delivered with
    | [] => ([], settled, missed)
    | e :: es =>
      let (later, last, more) := drain r { settled with delivered := [] }
      (e :: es ++ later, last, missed ++ more)
termination_by d.load
decreasing_by
  have := load_settle r d
  rw [‹d.settle r = _›] at this
  simp only [load, ‹settled.delivered = _›, List.length_cons, List.length_nil] at this ⊢
  omega

/-- The watcher takes the next of the delivered events. -/
def take? (d : Delivery α) : Option (Event × Delivery α) :=
  match d.delivered with
  | [] => none
  | e :: es => some (e, { d with delivered := es })

/-- Something new to look at. -/
def push (d : Delivery α) (items : List α) : Delivery α :=
  { d with waiting := d.waiting ++ items }

/-- The forwarder has ended, and everything that it delivered was taken. -/
def isOver (d : Delivery α) : Bool := d.phase == .ended && d.delivered.isEmpty

end Delivery

end FleetLedger
