import Mathlib.Data.List.Basic
import Mathlib.Data.List.Infix

/-!
# Bounded queues

Two policies for an entry that comes to a full queue: it is refused, or the oldest entry gives way
to it. A queue of the second kind holds the entries put last, as many of them as have room and have
not been taken.
-/

namespace BoundedQueue

variable {α : Type} (limit : Nat)

/-- A limit of zero is none. -/
def full (queue : List α) : Bool := 0 < limit && limit ≤ queue.length

/-- The entry is refused when there is no room. -/
def put? (queue : List α) (entry : α) : Option (List α) :=
  if full limit queue then none else some (queue ++ [entry])

/-- The oldest entry gives way. -/
def offer (queue : List α) (entry : α) : List α :=
  if full limit queue then queue.tail ++ [entry] else queue ++ [entry]

inductive Event (α : Type)
  | put (entry : α)
  | take

/-- What has been taken from a queue of the second kind, and what is in it. -/
structure Contents (α : Type) where
  taken : List α
  queue : List α

def Contents.after (contents : Contents α) : Event α → Contents α
  | .put entry => { contents with queue := offer limit contents.queue entry }
  | .take => ⟨contents.taken ++ contents.queue.head?.toList, contents.queue.tail⟩

def contents (events : List (Event α)) : Contents α :=
  events.foldl (Contents.after limit) ⟨[], []⟩

def Event.entry? : Event α → Option α
  | put entry => some entry
  | take => none

def puts (events : List (Event α)) : List α := events.filterMap Event.entry?

variable {limit}

theorem put?_eq_some {queue after : List α} {entry : α} (h : put? limit queue entry = some after) :
    after = offer limit queue entry := by
  unfold put? at h
  unfold offer
  split at h
  · cases h
  · next hroom => rw [if_neg hroom, Option.some.inj h]

theorem offer_of_room {queue : List α} (hroom : full limit queue = false) (entry : α) :
    offer limit queue entry = queue ++ [entry] := if_neg (by simp [hroom])

theorem offer_of_full {queue : List α} (hfull : full limit queue = true) (entry : α) :
    offer limit queue entry = queue.tail ++ [entry] := if_pos hfull

theorem put?_of_full {queue : List α} (hfull : full limit queue = true) (entry : α) :
    put? limit queue entry = none := if_pos hfull

/-- Once the oldest entry is out there is room. -/
theorem full_tail {queue : List α} (hbound : 0 < limit → queue.length ≤ limit) :
    full limit queue.tail = false := by
  simp only [full, List.length_tail, Bool.and_eq_false_iff, decide_eq_false_iff_not]
  by_cases hlimit : 0 < limit
  · have := hbound hlimit
    omega
  · exact .inl hlimit

theorem length_offer_le {queue : List α} (hbound : 0 < limit → queue.length ≤ limit) (entry : α)
    (hlimit : 0 < limit) : (offer limit queue entry).length ≤ limit := by
  have hlength := hbound hlimit
  by_cases hfull : full limit queue = true
  · rw [offer_of_full hfull]
    simp only [List.length_append, List.length_tail, List.length_singleton]
    omega
  · rw [offer_of_room (by simpa using hfull)]
    simp only [full, Bool.and_eq_true, decide_eq_true_eq, not_and] at hfull
    have := hfull hlimit
    simp only [List.length_append, List.length_singleton]
    omega

@[simp]
theorem getLast?_offer (queue : List α) (entry : α) :
    (offer limit queue entry).getLast? = some entry := by
  unfold offer
  split <;> exact List.getLast?_concat

theorem offer_suffix {queue log : List α} (hsuffix : queue <:+ log) (entry : α) :
    offer limit queue entry <:+ log ++ [entry] := by
  obtain ⟨before, rfl⟩ := hsuffix
  unfold offer
  split
  · cases queue with
    | nil => exact ⟨before, by simp⟩
    | cons head rest => exact ⟨before ++ [head], by simp⟩
  · exact ⟨before, by simp⟩

/-! ### What a queue holds that gives up its oldest entries -/

theorem contents_concat (events : List (Event α)) (event : Event α) :
    contents limit (events ++ [event]) = (contents limit events).after limit event := by
  simp [contents]

theorem puts_concat (events : List (Event α)) (event : Event α) :
    puts (events ++ [event]) = puts events ++ event.entry?.toList := by
  cases event <;> simp [puts, Event.entry?]

/-- **The entries put last**, in the order they were put. -/
theorem contents_suffix (limit : Nat) (events : List (Event α)) :
    (contents limit events).queue <:+ puts events := by
  induction events using List.reverseRecOn with
  | nil => exact List.suffix_rfl
  | append_singleton events event ih =>
      rw [contents_concat, puts_concat]
      cases event with
      | put entry => exact offer_suffix ih entry
      | take =>
          simp only [Contents.after, Event.entry?, Option.toList_none, List.append_nil]
          exact (List.tail_suffix _).trans ih

theorem length_contents_le (hlimit : 0 < limit) (events : List (Event α)) :
    (contents limit events).queue.length ≤ limit := by
  induction events using List.reverseRecOn with
  | nil => exact Nat.zero_le _
  | append_singleton events event ih =>
      rw [contents_concat]
      cases event with
      | put entry => exact length_offer_le (fun _ => ih) entry hlimit
      | take =>
          simp only [Contents.after, List.length_tail]
          omega

/-- The entry put last of all is still there, at the end, or was taken last. -/
theorem getLast?_contents (limit : Nat) (events : List (Event α)) :
    ((contents limit events).taken ++ (contents limit events).queue).getLast? =
      (puts events).getLast? := by
  induction events using List.reverseRecOn with
  | nil => rfl
  | append_singleton events event ih =>
      rw [contents_concat, puts_concat]
      cases event with
      | put entry =>
          simp only [Contents.after, Event.entry?, Option.toList_some, List.getLast?_append,
            getLast?_offer, List.getLast?_singleton, Option.some_or]
      | take =>
          rw [← List.append_nil (puts events)] at ih
          have hsame : ∀ queue : List α, queue.head?.toList ++ queue.tail = queue := by
            intro queue
            cases queue <;> rfl
          simp only [Contents.after, Event.entry?, Option.toList_none, List.append_assoc, hsame, ih]

end BoundedQueue
