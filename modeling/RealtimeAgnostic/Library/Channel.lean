import Mathlib.Data.List.Basic

/-! # Bounded channels

A queue of limited capacity between senders and one receiver. When the last sender
is gone the receiver still takes what waits; when the receiver is gone, so is what
waited, and every send fails.
-/

namespace RealtimeAgnostic

structure Channel (α : Type*) where
  items : List α
  capacity : Nat
  sending : Bool
  receiving : Bool
deriving DecidableEq, Repr

inductive Offer where
  | sent
  | full
  | closed
deriving DecidableEq, Repr

inductive Received (α : Type*) where
  | item (a : α)
  | empty
  | finished
deriving DecidableEq, Repr

namespace Channel

variable {α : Type*} (c : Channel α)

def new (α : Type*) (capacity : Nat) : Channel α := ⟨[], capacity, true, true⟩

def offer : Offer :=
  if !c.receiving then .closed else if c.items.length ≥ c.capacity then .full else .sent

def push (a : α) : Channel α := { c with items := c.items ++ [a] }

def receive : Received α :=
  match c.items with
  | a :: _ => .item a
  | [] => if c.sending then .empty else .finished

def pop : Channel α := { c with items := c.items.tail }

def dropSenders : Channel α := { c with sending := false }

def dropReceiver : Channel α := { c with items := [], receiving := false }

variable {c} {a : α}

theorem offer_eq_sent_iff : c.offer = .sent ↔ c.receiving = true ∧ c.items.length < c.capacity := by
  cases h : c.receiving <;> simp [offer, h]

theorem offer_eq_closed_iff : c.offer = .closed ↔ c.receiving = false := by
  cases h : c.receiving
  · simp [offer, h]
  · simp only [offer, h, Bool.not_true, Bool.false_eq_true, if_false]
    split <;> simp

theorem receive_eq_item_iff : c.receive = .item a ↔ ∃ rest, c.items = a :: rest := by
  cases h : c.items with
  | nil => cases hSending : c.sending <;> simp [receive, h, hSending]
  | cons b rest => simp [receive, h]

theorem receive_eq_finished_iff : c.receive = .finished ↔ c.items = [] ∧ c.sending = false := by
  cases h : c.items with
  | nil => cases hSending : c.sending <;> simp [receive, h, hSending]
  | cons b rest => simp [receive, h]

end Channel

end RealtimeAgnostic
