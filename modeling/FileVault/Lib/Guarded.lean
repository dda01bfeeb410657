import Mathlib.Data.List.Count
import Mathlib.Logic.Function.Basic
import Mathlib.Tactic

/-!
# A state behind a lock

Clients call an object whose state a mutex guards. A call is first looked at without
the lock, and that may settle it; otherwise it waits for the lock, takes it when it is
free, and runs on the state while it holds it. The steps of different clients come in
any order. The history lists the finished calls in the order in which they finished,
each with the state it found and the state it left.
-/

namespace FileVault.Lib

/-- An object behind a lock: what a call gets without it, where that settles the call,
and what a call does under it. -/
structure Guarded (σ Call Reply : Type) where
  early : Call → Option Reply
  run : σ → Call → Reply × σ

namespace Guarded

variable {σ Call Reply Client : Type}

/-- A call on its own: in a single thread the lock is never waited for. -/
def apply (object : Guarded σ Call Reply) (s : σ) (call : Call) : Reply × σ :=
  match object.early call with
  | some reply => (reply, s)
  | none => object.run s call

/-- A finished call. -/
structure Finished (σ Call Reply Client : Type) where
  client : Client
  call : Call
  reply : Reply
  before : σ
  after : σ

/-- The guarded state, who holds the lock, and the call each client is in. -/
structure System (σ Call Reply Client : Type) where
  state : σ
  holder : Option Client
  pending : Client → Option Call
  history : List (Finished σ Call Reply Client)

/-- No call made yet. -/
def System.start (s : σ) : System σ Call Reply Client := ⟨s, none, fun _ => none, []⟩

section

variable [DecidableEq Client]

/-- One client makes a call, has it settled without the lock, takes the lock, or runs its
call under the lock and gives it back. -/
inductive Step (object : Guarded σ Call Reply) :
    System σ Call Reply Client → System σ Call Reply Client → Prop
  | invoke {sys : System σ Call Reply Client} (c : Client) (call : Call)
      (idle : sys.pending c = none) :
      Step object sys { sys with pending := Function.update sys.pending c (some call) }
  | settle {sys : System σ Call Reply Client} (c : Client) {call : Call} {reply : Reply}
      (waiting : sys.pending c = some call) (early : object.early call = some reply) :
      Step object sys
        { sys with
          pending := Function.update sys.pending c none
          history := sys.history ++ [⟨c, call, reply, sys.state, sys.state⟩] }
  | acquire {sys : System σ Call Reply Client} (c : Client) {call : Call}
      (waiting : sys.pending c = some call) (late : object.early call = none)
      (free : sys.holder = none) :
      Step object sys { sys with holder := some c }
  | release {sys : System σ Call Reply Client} (c : Client) {call : Call}
      (waiting : sys.pending c = some call) (holds : sys.holder = some c) :
      Step object sys
        { state := (object.run sys.state call).2
          holder := none
          pending := Function.update sys.pending c none
          history := sys.history ++
            [⟨c, call, (object.run sys.state call).1, sys.state,
              (object.run sys.state call).2⟩] }

/-- What can come about from the state `s`. -/
inductive Reachable (object : Guarded σ Call Reply) (s : σ) :
    System σ Call Reply Client → Prop
  | start : Reachable object s (.start s)
  | step {sys sys' : System σ Call Reply Client} (h : Reachable object s sys)
      (next : Step object sys sys') : Reachable object s sys'

/-- The calls one after the other, each on the state the one before it left. -/
inductive Serial (object : Guarded σ Call Reply) (s : σ) :
    List (Finished σ Call Reply Client) → σ → Prop
  | nil : Serial object s [] s
  | call {history : List (Finished σ Call Reply Client)} {s' : σ}
      (h : Serial object s history s') (c : Client) (call : Call) :
      Serial object s
        (history ++ [⟨c, call, (object.apply s' call).1, s', (object.apply s' call).2⟩])
        (object.apply s' call).2

/-- The client that holds the lock is in a call that needs it. -/
theorem Reachable.holder_late {object : Guarded σ Call Reply} {s : σ}
    {sys : System σ Call Reply Client} (h : Reachable object s sys) {c : Client}
    (holds : sys.holder = some c) :
    ∃ call, sys.pending c = some call ∧ object.early call = none := by
  induction h generalizing c with
  | start => simp [System.start] at holds
  | step _ next ih =>
      cases next with
      | invoke c' call' idle =>
          obtain ⟨call, waiting, late⟩ := ih holds
          -- the holder is in a call already, so another client makes one
          have other : c ≠ c' := by
            rintro rfl
            simp [idle] at waiting
          exact ⟨call, by simpa [Function.update_of_ne other] using waiting, late⟩
      | settle c' waiting' early =>
          obtain ⟨call, waiting, late⟩ := ih holds
          -- the call of the holder was not settled without the lock
          have other : c ≠ c' := by
            rintro rfl
            rw [waiting, Option.some.injEq] at waiting'
            rw [waiting', early] at late
            simp at late
          exact ⟨call, by simpa [Function.update_of_ne other] using waiting, late⟩
      | acquire c' waiting late free =>
          obtain rfl := Option.some.inj holds
          exact ⟨_, waiting, late⟩
      | release c' waiting holds' => simp at holds

/-- Whatever the interleaving, the history is that of the finished calls made one after
the other. -/
theorem Reachable.serial {object : Guarded σ Call Reply} {s : σ}
    {sys : System σ Call Reply Client} (h : Reachable object s sys) :
    Serial object s sys.history sys.state := by
  induction h with
  | start => exact .nil
  | @step sys _ reached next ih =>
      cases next with
      | invoke c call idle => exact ih
      | @settle c call reply waiting early =>
          have alone : object.apply sys.state call = (reply, sys.state) := by
            simp [apply, early]
          have extended := ih.call c call
          rw [alone] at extended
          exact extended
      | acquire c waiting late free => exact ih
      | @release c call waiting holds =>
          obtain ⟨_, waiting', late⟩ := reached.holder_late holds
          obtain rfl := Option.some.inj (waiting.symm.trans waiting')
          -- nobody else has moved the state since the lock was taken
          have alone : object.apply sys.state call = object.run sys.state call := by
            simp [apply, late]
          have extended := ih.call c call
          rw [alone] at extended
          exact extended

end

/-- What every call on its own preserves and establishes holds all through a serial
history. -/
theorem Serial.invariant {object : Guarded σ Call Reply} {s s' : σ}
    {history : List (Finished σ Call Reply Client)} (h : Serial object s history s')
    (Inv : σ → Prop) (Post : Finished σ Call Reply Client → Prop) (init : Inv s)
    (step : ∀ s c call, Inv s → Inv (object.apply s call).2 ∧
      Post ⟨c, call, (object.apply s call).1, s, (object.apply s call).2⟩) :
    Inv s' ∧ ∀ entry ∈ history, Post entry := by
  induction h with
  | nil => exact ⟨init, by simp⟩
  | call _ c call ih =>
      obtain ⟨inv, post⟩ := ih
      obtain ⟨inv', post'⟩ := step _ c call inv
      refine ⟨inv', ?_⟩
      intro entry hentry
      rcases List.mem_append.mp hentry with old | new
      · exact post entry old
      · rw [List.mem_singleton.mp new]
        exact post'

/-- Where every bad call uses up something of a finite stock, there are no more bad calls than
the stock held. -/
theorem Serial.bounded {object : Guarded σ Call Reply} {s s' : σ}
    {history : List (Finished σ Call Reply Client)} (h : Serial object s history s')
    (Inv : σ → Prop) (Bad : Finished σ Call Reply Client → Prop) [DecidablePred Bad]
    (stock : σ → Nat) (init : Inv s)
    (step : ∀ s c call, Inv s → Inv (object.apply s call).2 ∧
      stock (object.apply s call).2 ≤ stock s ∧
      (Bad ⟨c, call, (object.apply s call).1, s, (object.apply s call).2⟩ →
        stock (object.apply s call).2 < stock s)) :
    Inv s' ∧ history.countP (fun entry => decide (Bad entry)) + stock s' ≤ stock s := by
  induction h with
  | nil => exact ⟨init, by simp⟩
  | @call history s' _ c call ih =>
      obtain ⟨inv, bound⟩ := ih
      obtain ⟨inv', less, spent⟩ := step s' c call inv
      refine ⟨inv', ?_⟩
      rw [List.countP_append, List.countP_singleton]
      by_cases bad : Bad ⟨c, call, (object.apply s' call).1, s', (object.apply s' call).2⟩
      · have := spent bad
        rw [decide_eq_true bad, if_pos rfl]
        omega
      · rw [decide_eq_false bad, if_neg Bool.false_ne_true]
        omega

end Guarded

end FileVault.Lib
