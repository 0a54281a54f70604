import Mathlib.Data.List.Basic

/-!
# Bounded channels

A bounded channel holds the messages sent and not yet received.  A send that does not wait
leaves a full channel as it is, so what has been sent since a channel was empty is in it up
to its capacity, and nothing in it is ever moved or replaced.

## Main definitions

* `Channel.trySend`, `Channel.sendAll` — one send that does not wait, and a run of them.

## Main results

* `Channel.sendAll_eq_take` — **what a channel holds of the messages sent to it.**
* `Channel.prefix_sendAll` — what is in a channel stays in front.
-/

namespace Pantoken
namespace Channel

variable {α : Type*} {cap : ℕ}

/-- Send without waiting: a full channel loses the message. -/
def trySend (cap : ℕ) (q : List α) (msg : α) : List α :=
  if q.length < cap then q ++ [msg] else q

/-- Send messages one after the other. -/
def sendAll (cap : ℕ) (q : List α) (msgs : List α) : List α := msgs.foldl (trySend cap) q

@[simp] theorem sendAll_nil (q : List α) : sendAll cap q [] = q := rfl

@[simp] theorem sendAll_cons (q : List α) (msg : α) (msgs : List α) :
    sendAll cap q (msg :: msgs) = sendAll cap (trySend cap q msg) msgs := rfl

theorem trySend_of_lt {q : List α} (h : q.length < cap) (msg : α) :
    trySend cap q msg = q ++ [msg] := if_pos h

theorem trySend_of_le {q : List α} (h : cap ≤ q.length) (msg : α) : trySend cap q msg = q :=
  if_neg (Nat.not_lt.mpr h)

/-- What is in a channel stays in front. -/
theorem prefix_trySend (q : List α) (msg : α) : q <+: trySend cap q msg := by
  rcases Nat.lt_or_ge q.length cap with hlt | hge
  · rw [trySend_of_lt hlt]
    exact List.prefix_append q [msg]
  · exact ⟨[], by rw [List.append_nil, trySend_of_le hge]⟩

theorem prefix_sendAll (q msgs : List α) : q <+: sendAll cap q msgs := by
  induction msgs generalizing q with
  | nil => exact List.prefix_rfl
  | cons msg msgs ih => exact (prefix_trySend q msg).trans (ih _)

/-- A full channel takes nothing. -/
theorem sendAll_of_le {q : List α} (h : cap ≤ q.length) (msgs : List α) :
    sendAll cap q msgs = q := by
  induction msgs with
  | nil => rfl
  | cons msg msgs ih => rw [sendAll_cons, trySend_of_le h, ih]

/-- **What a channel holds of the messages sent to it**: the first ones, up to its
capacity. -/
theorem sendAll_eq_take {q : List α} (h : q.length ≤ cap) (msgs : List α) :
    sendAll cap q msgs = (q ++ msgs).take cap := by
  induction msgs generalizing q with
  | nil => rw [List.append_nil, sendAll_nil, List.take_of_length_le h]
  | cons msg msgs ih =>
    rw [sendAll_cons]
    rcases Nat.lt_or_ge q.length cap with hlt | hge
    · rw [trySend_of_lt hlt, ih (by rw [List.length_append]; exact hlt), List.append_assoc]
      rfl
    · have hfull : q.length = cap := Nat.le_antisymm h hge
      rw [trySend_of_le hge, sendAll_of_le hge, ← hfull, List.take_left]

end Channel
end Pantoken
