import AsyncNetStack.Lib.Trace

open List

-- A queue with a capacity. Of a batch, only as much is taken as there is room for.
structure Fifo (α : Type*) (capacity : Nat) where
  items : List α
  bound : items.length ≤ capacity

namespace Fifo

open Transition

variable {α : Type*} {capacity : Nat}

inductive Op (α : Type*)
  | push (batch : List α)
  | pop (n : Nat)

def empty : Fifo α capacity where
  items := []
  bound := Nat.zero_le _

variable (q : Fifo α capacity)

def room : Nat :=
  capacity - q.items.length

def pushed : Op α → List α
  | .push batch => batch.take q.room
  | .pop _      => []

def popped : Op α → List α
  | .push _ => []
  | .pop n  => q.items.take n

def step : Op α → Fifo α capacity
  | .push batch => {
      items := q.items ++ batch.take q.room
      bound := by
        have := q.bound
        rw [length_append, length_take, room]
        omega
    }
  | .pop n => {
      items := q.items.drop n
      bound := by
        rw [length_drop]
        exact (Nat.sub_le ..).trans q.bound
    }

@[simp]
theorem items_push (batch : List α) : (q.step (.push batch)).items = q.items ++ batch.take q.room :=
  rfl

@[simp]
theorem items_pop (n : Nat) : (q.step (.pop n)).items = q.items.drop n :=
  rfl

theorem balance (op : Op α) : q.popped op ++ (q.step op).items = q.items ++ q.pushed op := by
  cases op
  case push => rfl
  case pop  => rw [pushed, append_nil]; exact take_append_drop ..

-- What has come out and what is still in the queue is what went in, in the same order.
theorem exec_balance (ops : List (Op α)) :
    logs step popped q ops ++ (exec step q ops).items = q.items ++ logs step pushed q ops := by
  induction ops generalizing q
  case nil => exact (append_nil _).symm
  case cons op ops ih =>
    calc logs step popped q (op :: ops) ++ (exec step q (op :: ops)).items
      _ = q.popped op ++ (logs step popped (q.step op) ops ++ (exec step (q.step op) ops).items) :=
        append_assoc ..
      _ = q.popped op ++ (q.step op).items ++ logs step pushed (q.step op) ops := by
        rw [ih, append_assoc]
      _ = q.items ++ logs step pushed q (op :: ops) := by
        rw [balance, append_assoc]
        rfl

end Fifo
