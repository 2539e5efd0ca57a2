import FleetLedger.Proofs.Deliveries
import FleetLedger.Proofs.JsonTexts
import FleetLedger.Sql.Keys

/-!
# A database tells a watcher of every change

A watch of a key-value store in a database listens to texts that anyone may send.  What a text tells
the watcher is a matter of that text alone (`change?`): nothing if it spells no event, if it spells a
change outside of the scope, or if it spells the end of a watch.

A `Relay` is such a watch together with what its watcher has taken.  Texts come in, the forwarder and
the watcher have their turns in any order, and at some time the listener ends.  All of that are
occasions of a delivery (`Follows`), so that the account of deliveries says what was taken.  As any
number of texts may wait, only the end of the listener breaks the delivery off, after the last text.

A watcher who keeps receiving is given all of it at any pace, because at some time nothing is left to do
(`Delivery.exists_idle`).

The main statement is **`relays_faithfully`**.
-/

namespace FleetLedger

open Json.Parser (Reads ReadsField reads_string reads_object)

/-- **An event is read from its text.** -/
theorem Event.ofText?_text (e : Event) : ofText? (Json.object e.toDocument).text = some e := by
  cases e with
  | put key value =>
      have hreads : Reads (.object (Event.put key value).toDocument)
          (.object [(some "key", .string (some key)), (some "op", .string (some "put")),
            (some "value", .string (some value))]) :=
        reads_object (.cons ⟨rfl, reads_string key⟩ (.cons ⟨rfl, reads_string "put"⟩
          (.cons ⟨rfl, reads_string value⟩ .nil)))
      rw [ofText?, hreads.read?_text]
      rfl
  | delete key =>
      have hreads : Reads (.object (Event.delete key).toDocument)
          (.object [(some "key", .string (some key)), (some "op", .string (some "delete"))]) :=
        reads_object (.cons ⟨rfl, reads_string key⟩ (.cons ⟨rfl, reads_string "delete"⟩ .nil))
      rw [ofText?, hreads.read?_text]
      rfl
  | closed reason =>
      have hreads : Reads (.object (Event.closed reason).toDocument)
          (.object [(some "op", .string (some "closed")),
            (some "reason", .string (some reason))]) :=
        reads_object (.cons ⟨rfl, reads_string "closed"⟩ (.cons ⟨rfl, reads_string reason⟩ .nil))
      rw [ofText?, hreads.read?_text]
      rfl

end FleetLedger

namespace FleetLedger.Sql.Keys.Listening

open Delivery (Course Fair Occasion Party)

/-! ## What a text tells -/

/-- What a text tells the watcher of a scope: a change, if it spells one within the scope.  The end of a
watch is not for a text to tell. -/
def change? (scope text : String) : Option Event :=
  match Event.ofText? text with
  | some (.put key value) => if Scope.covers scope key then some (.put key value) else none
  | some (.delete key) => if Scope.covers scope key then some (.delete key) else none
  | some (.closed _) | none => none

/-- The rules pick the changes in the scope. -/
lemma pick_eq (scope text : String) : (rules scope).pick text = change? scope text := by
  have hrules : (rules scope).pick text = (Event.ofText? text).filter (Event.isUnder scope) := rfl
  rw [hrules, change?]
  cases Event.ofText? text with
  | none => rfl
  | some e => cases e <;> rfl

/-- **A text that was made of an event** tells that event, if it is a change within the scope. -/
theorem change?_text (scope : String) (e : Event) :
    change? scope (Json.object e.toDocument).text = if e.isUnder scope then some e else none := by
  rw [change?, e.ofText?_text]
  cases e <;> rfl

/-! ## A watch and its watcher -/

/-- What happens while the listener listens. -/
inductive Moment where
  | hear (text : String)
  | turn (t : Party)

/-- The text that is heard. -/
def Moment.text? : Moment → Option String
  | hear text => some text
  | turn _ => none

/-- How the listener ends. -/
inductive Ending where
  | lost
  | failed (error : String)

/-- What the watcher is told of an ending. -/
def Ending.reason : Ending → String
  | lost => lostReason
  | failed error => error

/-- A watch, and what its watcher has taken so far. -/
structure Relay where
  listening : Listening
  taken : List Event := []

namespace Relay

/-- Someone has a turn: the forwarder acts, or the watcher takes an event.  Nothing happens if it
cannot. -/
def act (x : Relay) : Party → Relay
  | .forwarder =>
    match x.listening.delivery.step? (rules x.listening.scope) with
    | some (delivery, _) => { x with listening := { x.listening with delivery } }
    | none => x
  | .watcher =>
    match x.listening.delivery.take? with
    | some (e, delivery) => { listening := { x.listening with delivery }, taken := x.taken ++ [e] }
    | none => x

/-- Something happens while the listener listens. -/
def meet (x : Relay) : Moment → Relay
  | .hear text => { x with listening := x.listening.hear [text] }
  | .turn t => x.act t

/-- What becomes of a watch in several moments. -/
def after (x : Relay) (moments : List Moment) : Relay := moments.foldl meet x

/-- The listener ends. -/
def finish (x : Relay) : Ending → Relay
  | .lost => { x with listening := x.listening.lose }
  | .failed error => { x with listening := x.listening.fail error }

/-- What becomes of a watch after so many turns of a schedule. -/
def paced (x : Relay) (schedule : ℕ → Party) : ℕ → Relay
  | 0 => x
  | n + 1 => (x.paced schedule n).act (schedule n)

end Relay

/-! ## Occasions -/

/-- What a moment is to the delivery. -/
def Moment.occasion : Moment → Occasion String
  | hear text => .arrive text
  | turn t => t.occasion

/-- A moment brings the item that it tells. -/
lemma Moment.item?_occasion (m : Moment) : m.occasion.item? = m.text? := by
  cases m with
  | hear text => rfl
  | turn t => exact t.item?_occasion

lemma Moment.occasion_ne_endSource (m : Moment) (reason : String) :
    m.occasion ≠ .endSource reason := by
  rcases m with text | (_ | _) <;> exact nofun

/-- The delivery of a watch, and what was taken. -/
def Relay.course (x : Relay) : Course String := ⟨x.listening.delivery, x.taken⟩

/-- **A turn is an occasion of the delivery.** -/
theorem Relay.course_act (x : Relay) (t : Party) :
    (x.act t).course = x.course.meet (rules x.listening.scope) t.occasion := by
  cases t with
  | forwarder =>
      simp only [act, course, Party.occasion, Course.meet]
      cases x.listening.delivery.step? (rules x.listening.scope) <;> rfl
  | watcher =>
      simp only [act, course, Party.occasion, Course.meet]
      cases x.listening.delivery.take? <;> rfl

lemma Relay.scope_act (x : Relay) (t : Party) :
    (x.act t).listening.scope = x.listening.scope := by
  cases t with
  | forwarder =>
      rw [act]
      cases x.listening.delivery.step? (rules x.listening.scope) <;> rfl
  | watcher =>
      rw [act]
      cases x.listening.delivery.take? <;> rfl

/-- Turns of the forwarder are all that settling a delivery is. -/
lemma Relay.exists_settle (x : Relay) :
    ∃ k, x.after (List.replicate k (.turn .forwarder))
      = { x with listening :=
          { x.listening with
            delivery := (x.listening.delivery.settle (rules x.listening.scope)).1 } } := by
  obtain ⟨k, hk⟩ := Delivery.exists_settle (rules x.listening.scope) x.listening.delivery x.taken
  have hturns : ∀ (n : ℕ) (y : Relay), y.listening.scope = x.listening.scope →
      (y.after (List.replicate n (.turn .forwarder))).listening.scope = x.listening.scope
        ∧ (y.after (List.replicate n (.turn .forwarder))).course
          = y.course.after (rules x.listening.scope) (List.replicate n .forward) := by
    intro n
    induction n with
    | zero => exact fun y hy => ⟨hy, rfl⟩
    | succ n ih =>
        intro y hy
        obtain ⟨hscope, hcourse⟩ := ih (y.act .forwarder) ((y.scope_act _).trans hy)
        refine ⟨hscope, hcourse.trans ?_⟩
        rw [y.course_act, hy]
        rfl
  obtain ⟨hscope, hcourse⟩ := hturns k x rfl
  have hsettled := hcourse.trans hk
  refine ⟨k, ?_⟩
  generalize x.after (List.replicate k (.turn .forwarder)) = y at hscope hsettled
  obtain ⟨⟨scope, delivery⟩, taken⟩ := y
  obtain rfl : scope = x.listening.scope := hscope
  obtain ⟨rfl, rfl⟩ := Course.mk.inj hsettled
  rfl

/-- **To receive is to have a turn**, after some turns of the forwarder. -/
theorem Relay.exists_receive (x : Relay) :
    ∃ k, let y := x.after (List.replicate k (.turn .forwarder) ++ [.turn .watcher])
      y.listening = x.listening.receive.2
        ∧ ((x.listening.receive.1 = .pending ∨ x.listening.receive.1 = .ended) ∧ y.taken = x.taken
          ∨ ∃ e, x.listening.receive.1 = .event e ∧ y.taken = x.taken ++ [e]) := by
  obtain ⟨k, hsettled⟩ := x.exists_settle
  refine ⟨k, ?_⟩
  have hafter : x.after (List.replicate k (.turn .forwarder) ++ [.turn .watcher])
      = (x.after (List.replicate k (.turn .forwarder))).act .watcher := List.foldl_append
  rw [hafter, hsettled, act, receive]
  generalize (x.listening.delivery.settle (rules x.listening.scope)).1 = settled
  cases htake : settled.take? with
  | none =>
      refine ⟨rfl, Or.inl ⟨?_, rfl⟩⟩
      cases settled.isOver
      · exact Or.inl rfl
      · exact Or.inr rfl
  | some next =>
      exact ⟨rfl, Or.inr ⟨next.1, rfl, rfl⟩⟩

/-- A watch of a scope is what its delivery becomes on some occasions. -/
structure Follows (scope : String) (occasions : List (Occasion String)) (x : Relay) : Prop where
  scope_eq : x.listening.scope = scope
  course_eq : x.course = Course.after (rules scope) {} occasions

section Follows

variable {scope : String} {os : List (Occasion String)} {x : Relay}

lemma follows_opened (scope : String) : Follows scope [] { listening := { scope } } := ⟨rfl, rfl⟩

/-- What a party does keeps the relay on its course. -/
lemma Follows.act (h : Follows scope os x) (t : Party) :
    Follows scope (os ++ [t.occasion]) (x.act t) where
  scope_eq := (x.scope_act t).trans h.scope_eq
  course_eq := by rw [x.course_act, h.scope_eq, h.course_eq, Course.after_concat]

/-- What is heard arrives, as long as the listener has not ended. -/
lemma Follows.hear (h : Follows scope os x) (hopen : ∀ reason, .endSource reason ∉ os)
    (text : String) : Follows scope (os ++ [.arrive text]) (x.meet (.hear text)) := by
  have hlistens : x.listening.delivery.sourceEnd = none := by
    cases hend : x.listening.delivery.sourceEnd with
    | none => rfl
    | some reason =>
        have hcourse := congrArg (·.delivery.sourceEnd) h.course_eq
        exact absurd (Delivery.mem_of_sourceEnd (hcourse.symm.trans hend)) (hopen reason)
  have hhear : x.listening.hear [text]
      = { x.listening with delivery := x.listening.delivery.push [text] } := by
    rw [Listening.hear, hlistens]
    rfl
  refine ⟨?_, ?_⟩
  · rw [Relay.meet, hhear]
    exact h.scope_eq
  · rw [Course.after_concat, ← h.course_eq, Relay.meet, hhear]
    rfl

lemma Follows.after (h : Follows scope os x) (hopen : ∀ reason, .endSource reason ∉ os)
    (moments : List Moment) : Follows scope (os ++ moments.map Moment.occasion) (x.after moments) := by
  induction moments generalizing os x with
  | nil =>
      rw [List.map_nil, List.append_nil]
      exact h
  | cons m moments ih =>
      have hmet : Follows scope (os ++ [m.occasion]) (x.meet m) := by
        cases m with
        | hear text => exact h.hear hopen text
        | turn t => exact h.act t
      have hstill : ∀ reason, .endSource reason ∉ os ++ [m.occasion] := fun reason hmem => by
        rcases List.mem_append.mp hmem with hmem | hmem
        · exact hopen reason hmem
        · exact m.occasion_ne_endSource reason (List.mem_singleton.mp hmem).symm
      have hlater := ih hmet hstill
      rw [List.append_assoc] at hlater
      exact hlater

/-- The end of the listening keeps the relay on its course, as the end of the source. -/
lemma Follows.finish (h : Follows scope os x) (ending : Ending) :
    Follows scope (os ++ [.endSource ending.reason]) (x.finish ending) := by
  have hsource : Course.after (rules scope) {} (os ++ [.endSource ending.reason])
      = x.course.meet (rules scope) (.endSource ending.reason) := by
    rw [Course.after_concat, h.course_eq]
  cases ending with
  | lost => exact ⟨h.scope_eq, hsource.symm⟩
  | failed error => exact ⟨h.scope_eq, hsource.symm⟩

/-- However the parties take turns, the relay stays on its course. -/
lemma Follows.paced (h : Follows scope os x) (schedule : ℕ → Party) (n : ℕ) :
    Follows scope (os ++ (List.range n).map (Party.occasion ∘ schedule)) (x.paced schedule n) := by
  induction n with
  | zero =>
      rw [List.range_zero, List.map_nil, List.append_nil]
      exact h
  | succ n ih =>
      have hnext := ih.act (schedule n)
      rw [List.append_assoc] at hnext
      rw [List.range_succ, List.map_append]
      exact hnext

end Follows

/-! ## What was told -/

/-- The texts that are heard. -/
def heard (moments : List Moment) : List String := moments.filterMap Moment.text?

lemma arrivals_moments (moments : List Moment) :
    Delivery.arrivals (moments.map Moment.occasion) = heard moments := by
  rw [Delivery.arrivals, List.filterMap_map, heard]
  exact List.filterMap_congr fun m _ => m.item?_occasion

lemma endSource_notMem_moments (moments : List Moment) (reason : String) :
    .endSource reason ∉ moments.map Moment.occasion := fun hmem => by
  obtain ⟨m, -, hm⟩ := List.mem_map.mp hmem
  exact m.occasion_ne_endSource reason hm

/-- What a watch meets with whose listener has ended. -/
def ended (moments : List Moment) (ending : Ending) (turns : List Party) : List (Occasion String) :=
  moments.map Moment.occasion ++ .endSource ending.reason :: turns.map Party.occasion

section Ended

variable {scope : String} {moments : List Moment} {ending : Ending} {turns : List Party}

/-- Nothing arrives after the end. -/
lemma arrivals_ended : Delivery.arrivals (ended moments ending turns) = heard moments := by
  have hturns : Delivery.arrivals (turns.map (Party.occasion : Party → Occasion String)) = [] :=
    Delivery.arrivals_turns turns
  rw [← arrivals_moments]
  rw [Delivery.arrivals] at hturns ⊢
  rw [ended, List.filterMap_append, List.filterMap_cons_none rfl, hturns, List.append_nil]
  rfl

/-- There is one reason for the end. -/
lemma reason_of_mem_ended {reason : String}
    (h : .endSource reason ∈ ended moments ending turns) : reason = ending.reason := by
  rcases List.mem_append.mp h with hbefore | hafter
  · exact absurd hbefore (endSource_notMem_moments moments reason)
  · rcases List.mem_cons.mp hafter with heq | hturn
    · exact Occasion.endSource.inj heq
    · obtain ⟨t, -, ht⟩ := List.mem_map.mp hturn
      cases t <;> cases ht

/-- **Only the end of the listener breaks a watch off**, and then all texts have been looked at. -/
theorem brokeOff_cases {passed : List String} {reason : String}
    (h : Delivery.BrokeOff (rules scope) (ended moments ending turns) passed reason) :
    passed = heard moments ∧ reason = ending.reason := by
  obtain ⟨sooner, hsooner, -, harrived, hcause⟩ := h
  rcases hcause with ⟨n, hskipped, -⟩ | ⟨hnone, hend⟩
  · -- any number of texts may wait
    cases hskipped
  · have hmem := Delivery.mem_of_sourceEnd hend
    refine ⟨?_, reason_of_mem_ended (hsooner.subset hmem)⟩
    rw [hnone, List.append_nil] at harrived
    have hlast : heard moments <+: Delivery.arrivals sooner := by
      rcases List.prefix_or_prefix_of_prefix hsooner (List.prefix_append ..) with hshort | hlong
      · exact absurd (hshort.subset hmem) (endSource_notMem_moments moments reason)
      · exact arrivals_moments moments ▸ hlong.filterMap _
    have hfirst : Delivery.arrivals sooner <+: heard moments :=
      @arrivals_ended moments ending turns ▸ hsooner.filterMap _
    rw [← harrived]
    exact hfirst.eq_of_length_le hlast.length_le

/-- With the end of the listening the source has ended, for its reason. -/
lemma sourceEnd_ended (scope : String) :
    (Course.after (rules scope) {} (ended moments ending turns)).delivery.sourceEnd
      = some ending.reason := by
  induction turns using List.reverseRecOn with
  | nil => rw [ended, List.map_nil, Course.after_concat]; rfl
  | append_singleton turns t ih =>
      have hmore : ended moments ending (turns ++ [t]) = ended moments ending turns ++ [t.occasion] := by
        rw [ended, ended, List.map_append, List.append_assoc]
        rfl
      rw [hmore, Course.after_concat, Delivery.sourceEnd_meet, ih]

end Ended

/-- What the watcher has to be told: the changes that texts tell, and at last how the listener ended. -/
def told (scope : String) (moments : List Moment) (ending : Ending) : List Event :=
  (heard moments).filterMap (change? scope) ++ [.closed ending.reason]

lemma filterMap_pick (scope : String) (texts : List String) :
    texts.filterMap (rules scope).pick = texts.filterMap (change? scope) :=
  List.filterMap_congr fun text _ => pick_eq scope text

section Told

variable {scope : String} {moments : List Moment} {ending : Ending} {turns : List Party} {x : Relay}

/-- While the listener listens, nothing but changes is taken. -/
lemma taken_of_open (h : Follows scope (moments.map Moment.occasion) x) :
    x.taken <+: (heard moments).filterMap (change? scope) := by
  have htaken : x.taken = _ := congrArg (·.taken) h.course_eq
  rcases Delivery.taken_eq (rules scope) (moments.map Moment.occasion) with hfirst
    | ⟨passed, reason, -, met, hmet, -, -, hcause⟩
  · rw [htaken, ← filterMap_pick, ← arrivals_moments]
    exact hfirst
  · rcases hcause with ⟨n, hskipped, -⟩ | ⟨-, hend⟩
    · cases hskipped
    · exact absurd (hmet.subset (Delivery.mem_of_sourceEnd hend))
        (endSource_notMem_moments moments reason)

/-- **Nothing is taken but what has to be told.** -/
theorem taken_prefix_told (h : Follows scope (ended moments ending turns) x) :
    x.taken <+: told scope moments ending := by
  have htaken : x.taken = _ := congrArg (·.taken) h.course_eq
  rw [htaken, told, ← filterMap_pick]
  rcases Delivery.taken_eq (rules scope) (ended moments ending turns) with hfirst
    | ⟨passed, reason, heq, hbroke⟩
  · rw [arrivals_ended] at hfirst
    exact hfirst.trans (List.prefix_append ..)
  · obtain ⟨rfl, rfl⟩ := brokeOff_cases hbroke
    exact heq ▸ List.prefix_refl _

/-- **When nothing is left to do, all was told**, and the watcher is given nothing more. -/
theorem told_of_idle (h : Follows scope (ended moments ending turns) x)
    (hidle : Delivery.Idle (rules scope) x.listening.delivery) :
    x.taken = told scope moments ending ∧ x.listening.receive.1 = .ended := by
  have hend : x.listening.delivery.sourceEnd = some ending.reason :=
    (congrArg (·.delivery.sourceEnd) h.course_eq).trans (sourceEnd_ended scope)
  have hphase : x.listening.delivery.phase = .ended := by
    rcases Delivery.idle_cases hidle.step? hidle.delivered with ⟨hlooking, hwaiting⟩ | hphase
    · -- a forwarder that has looked at everything sees that the source has ended
      have hstep := hidle.step?
      rw [Delivery.step?, hlooking] at hstep
      simp [Delivery.look?, Delivery.skipped?, rules, hwaiting, hend] at hstep
    · exact hphase
  have hreceive : x.listening.receive.1 = .ended := by
    have hsettle : x.listening.delivery.settle (rules x.listening.scope)
        = (x.listening.delivery, []) := by
      rw [h.scope_eq, Delivery.settle]
      split
      · rfl
      · rename_i hstep
        rw [hidle.step?] at hstep
        cases hstep
    have hover : x.listening.delivery.isOver = true := by
      rw [Delivery.isOver, hphase, hidle.delivered]
      rfl
    simp only [receive, hsettle, Delivery.take?, hidle.delivered, hover]
    rfl
  refine ⟨?_, hreceive⟩
  have haccounted := Delivery.accounted (rules scope) (ended moments ending turns)
  rw [Delivery.Accounted, ← h.course_eq] at haccounted
  rw [Relay.course, Course.sent] at haccounted
  simp only [hphase, hidle.delivered, List.append_nil] at haccounted
  obtain ⟨passed, reason, hsent, hbroke⟩ := haccounted
  obtain ⟨rfl, rfl⟩ := brokeOff_cases hbroke
  rw [hsent, told, filterMap_pick]

end Told

/-! ## Relaying -/

/-- **A watch relays faithfully.**  Let a watch of a scope be opened; texts come in, whatever they are,
and forwarder and watcher have turns in any order; then the listener ends, because the connection is
lost or for an error; then forwarder and watcher have turns by some schedule.

What the watcher has taken is at any time a first part of what the texts tell, in their order, and
behind that the reason for which the listener ended, which is never there before the listener ends.  If
everyone has a turn again and again, the watcher is given all of it at some time, and from then on
nothing more.

A text tells the change within the scope that it spells, and nothing else: a text that was made of an
event tells that event, unless it is outside of the scope or the end of a watch. -/
theorem relays_faithfully (scope : String) (moments : List Moment) (ending : Ending)
    (schedule : ℕ → Party) :
    let listened := ({ listening := { scope } } : Relay).after moments
    let run := (listened.finish ending).paced schedule
    listened.taken <+: (heard moments).filterMap (change? scope)
      ∧ (∀ n, (run n).taken <+: told scope moments ending)
      ∧ (Fair schedule → ∃ n, ∀ m ≥ n,
        (run m).taken = told scope moments ending ∧ (run m).listening.receive.1 = .ended)
      ∧ ∀ e : Event, change? scope (Json.object e.toDocument).text
        = if e.isUnder scope then some e else none := by
  intro listened run
  have hopen : ∀ reason, .endSource reason ∉ ([] : List (Occasion String)) := fun _ => nofun
  have hbefore := (follows_opened scope).after hopen moments
  rw [List.nil_append] at hbefore
  have hrun : ∀ n, Follows scope
      (ended moments ending ((List.range n).map schedule)) (run n) := fun n => by
    have hpaced := (hbefore.finish ending).paced schedule n
    rw [List.append_assoc, ← List.map_map] at hpaced
    exact hpaced
  refine ⟨taken_of_open hbefore, fun n => taken_prefix_told (hrun n), fun hfair => ?_,
    change?_text scope⟩
  have hmeets : ∀ n, (run (n + 1)).course
      = (run n).course.meet (rules scope) (schedule n).occasion := fun n => by
    have hact : run (n + 1) = (run n).act (schedule n) := rfl
    rw [hact, Relay.course_act, (hrun n).scope_eq]
  obtain ⟨n, hidle, hstays⟩ := Delivery.exists_idle (f := fun n => (run n).course) hmeets hfair
  refine ⟨n, fun m hm => told_of_idle (hrun m) ?_⟩
  have hsame : (run m).course = (run n).course := hstays m hm
  have hdelivery : (run m).listening.delivery = (run n).listening.delivery :=
    congrArg (·.delivery) hsame
  rw [hdelivery]
  exact hidle

/-- The forwarder and the watcher have turns one after the other. -/
def byTurns (n : ℕ) : Party := if n % 2 = 0 then .forwarder else .watcher

/-- Two changes, with texts around them that tell nothing: one that spells no event, a forged end, and
a change outside of the scope. -/
def mixed : List Moment :=
  [.hear (Json.object (Event.put "/jobwatch/node/n1" "7").toDocument).text, .turn .forwarder,
    .hear "no event", .turn .watcher,
    .hear (Json.object (Event.closed "forged").toDocument).text,
    .hear (Json.object (Event.put "/jobwatch/group/g" "7").toDocument).text, .turn .watcher,
    .hear (Json.object (Event.delete "/jobwatch/node/n1").toDocument).text]

/-- Of mixed moments the changes in the scope are relayed, in order. -/
theorem relays_faithfully_mixed :
    Fair byTurns
      ∧ ∃ n, ∀ m ≥ n,
        let x := ((({ listening := { scope := "/jobwatch/node/" } } : Relay).after mixed).finish
          .lost).paced byTurns m
        x.taken = [.put "/jobwatch/node/n1" "7", .delete "/jobwatch/node/n1",
          .closed "listener connection lost"] ∧ x.listening.receive.1 = .ended := by
  have hfair : Fair byTurns := fun t n => by
    cases t with
    | forwarder => exact ⟨2 * n, by omega, by simp [byTurns]⟩
    | watcher => exact ⟨2 * n + 1, by omega, by simp [byTurns]⟩
  obtain ⟨-, -, hall, htext⟩ := relays_faithfully "/jobwatch/node/" mixed .lost byTurns
  have hno : change? "/jobwatch/node/" "no event" = none := by decide +kernel
  have htold : told "/jobwatch/node/" mixed .lost
      = [.put "/jobwatch/node/n1" "7", .delete "/jobwatch/node/n1",
        .closed "listener connection lost"] := by
    simp only [told, heard, mixed, List.filterMap_cons, List.filterMap_nil, Moment.text?, htext, hno]
    rfl
  rw [htold] at hall
  exact ⟨hfair, hall hfair⟩

end FleetLedger.Sql.Keys.Listening
