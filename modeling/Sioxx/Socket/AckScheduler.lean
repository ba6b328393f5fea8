/-
Sioxx.Socket.AckScheduler — the deadline table of timed acknowledgements
(`ack_scheduler.hpp`).

The table is kept twice: by id (`deadlines`) and in the order of expiry
(`ordered`). Each function below is one critical section of the
scheduler's own mutex. Time is a reading of the steady clock, in
nanoseconds.
-/
import Mathlib.Data.List.AList
import Mathlib.Data.List.Sort

namespace Sioxx

/-- A reading of `steady_clock`, in nanoseconds since its epoch. -/
abbrev Time := Nat

/-- The order of `std::pair<time_point, int>`. -/
def expiresBefore (a b : Time × Int) : Prop := a.1 < b.1 ∨ (a.1 = b.1 ∧ a.2 ≤ b.2)

instance : DecidableRel expiresBefore := fun _ _ => inferInstanceAs (Decidable (_ ∨ _))

/-- `std::map::emplace`: an existing entry stays. -/
def emplace {κ : Type} {ν : Type} [DecidableEq κ] (m : AList (fun _ : κ => ν)) (key : κ)
    (value : ν) : AList (fun _ : κ => ν) :=
  if key ∈ m then m else m.insert key value

structure AckScheduler where
  deadlines : AList (fun _ : Int => Time) := ∅
  ordered : List (Time × Int) := []

namespace AckScheduler

/-- `add`; the set, too, keeps an entry it already has. -/
def add (s : AckScheduler) (id : Int) (deadline : Time) : AckScheduler where
  deadlines := emplace s.deadlines id deadline
  ordered :=
    if (deadline, id) ∈ s.ordered then s.ordered
    else s.ordered.orderedInsert expiresBefore (deadline, id)

/-- `expired`: a missing deadline counts as passed. -/
def expired (s : AckScheduler) (id : Int) (now : Time) : Bool :=
  match s.deadlines.lookup id with
  | none => true
  | some deadline => decide (deadline ≤ now)

/-- `remove`: drops the entry and reports whether its deadline has passed;
a missing deadline has been claimed by the expiry worker. -/
def remove (s : AckScheduler) (id : Int) (now : Time) : Bool × AckScheduler :=
  match s.deadlines.lookup id with
  | none => (true, s)
  | some deadline =>
    (decide (deadline ≤ now),
      { deadlines := s.deadlines.erase id
        ordered := s.ordered.filter (fun entry => entry ≠ (deadline, id)) })

/-- `clear`. -/
def clear (_ : AckScheduler) : AckScheduler := {}

/-- One turn of the worker's loop: the id it pops, when the earliest
deadline has passed. -/
def pop (s : AckScheduler) (now : Time) : Option (Int × AckScheduler) :=
  if s.deadlines.entries.isEmpty then none
  else
    match s.ordered with
    | [] => none
    | (deadline, id) :: rest =>
      if deadline > now then none
      else some (id, { deadlines := s.deadlines.erase id, ordered := rest })

end AckScheduler

end Sioxx
