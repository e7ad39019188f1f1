import Mathlib.Data.List.Nodup
import Mathlib.Order.Lattice

/-! # The timeouts of an event loop

    `setTimeout` and `clearTimeout`, over any kind of time and of callbacks.  The loop runs a
    timeout when it likes once it is due, and in any order; one that has run, or has been
    cleared, is gone, and its id is never given again. -/

namespace Timeouts

variable {τ κ : Type}

/-- A timeout that is set: what it calls, and when it is due. -/
structure Timeout (τ κ : Type) where
  id : ℕ
  due : τ
  callback : κ

/-- What time it is, the timeouts that have still to run, and the id of the next one. -/
structure Clock (τ κ : Type) where
  now : τ
  pending : List (Timeout τ κ)
  next : ℕ
  fresh : ∀ t ∈ pending, t.id < next
  distinct : (pending.map Timeout.id).Nodup

namespace Clock

/-- The clock of a loop that has just started. -/
def start (now : τ) : Clock τ κ where
  now := now
  pending := []
  next := 0
  fresh _ h := absurd h List.not_mem_nil
  distinct := List.nodup_nil

/-- Its id is `c.next`. -/
def setTimeout [Add τ] (c : Clock τ κ) (callback : κ) (delay : τ) : Clock τ κ where
  now := c.now
  pending := c.pending ++ [⟨c.next, c.now + delay, callback⟩]
  next := c.next + 1
  fresh := by
    intro t ht
    rcases List.mem_append.mp ht with ht | ht
    · exact Nat.lt_succ_of_lt (c.fresh t ht)
    · rw [List.mem_singleton.mp ht]
      exact Nat.lt_succ_self _
  distinct := by
    rw [List.map_append, List.map_singleton, List.nodup_append]
    refine ⟨c.distinct, List.nodup_singleton _, ?_⟩
    intro id hid id' hid' heq
    obtain ⟨t, ht, rfl⟩ := List.mem_map.mp hid
    have hlt := c.fresh t ht
    rw [heq, List.mem_singleton.mp hid'] at hlt
    exact Nat.lt_irrefl _ hlt

/-- An id that no pending timeout has is ignored. -/
def clearTimeout (c : Clock τ κ) (id : ℕ) : Clock τ κ where
  now := c.now
  pending := c.pending.filter fun t => t.id ≠ id
  next := c.next
  fresh t ht := c.fresh t (List.mem_of_mem_filter ht)
  distinct := c.distinct.sublist (List.filter_sublist.map _)

variable [LinearOrder τ]

/-- Time passes. -/
def wait (c : Clock τ κ) (now : τ) : Option (Clock τ κ) :=
  if c.now ≤ now then some { c with now := now } else none

/-- The loop takes a timeout that is due, for its callback to be run. -/
def take (c : Clock τ κ) (id : ℕ) : Option (κ × Clock τ κ) :=
  (c.pending.find? fun t => t.id = id ∧ t.due ≤ c.now).map fun t =>
    (t.callback, c.clearTimeout id)

/-- Time goes on, and nothing else changes. -/
theorem wait_eq_some {c c' : Clock τ κ} {now : τ} (h : c.wait now = some c') :
    c.now ≤ now ∧ c' = { c with now := now } := by
  rw [wait] at h
  split at h
  · next hle => exact ⟨hle, (Option.some.inj h).symm⟩
  · cases h

/-- A timeout that is run was pending and due, and is pending no more. -/
theorem take_eq_some {c : Clock τ κ} {id : ℕ} {x : κ × Clock τ κ} (h : c.take id = some x) :
    ∃ t ∈ c.pending, t.id = id ∧ t.due ≤ c.now ∧ x = (t.callback, c.clearTimeout id) := by
  obtain ⟨t, ht, rfl⟩ := Option.map_eq_some_iff.mp h
  have hp := List.find?_some ht
  simp only [decide_eq_true_eq] at hp
  exact ⟨t, List.mem_of_find?_eq_some ht, hp.1, hp.2, rfl⟩

/-- A pending timeout can be taken from the moment it is due. -/
theorem take_of_mem {c : Clock τ κ} {t : Timeout τ κ} (ht : t ∈ c.pending) (hdue : t.due ≤ c.now) :
    c.take t.id = some (t.callback, c.clearTimeout t.id) := by
  have hfound : (c.pending.find? fun u => u.id = t.id ∧ u.due ≤ c.now).isSome = true :=
    List.find?_isSome.mpr ⟨t, ht, by simp [hdue]⟩
  obtain ⟨u, hu⟩ := Option.isSome_iff_exists.mp hfound
  have hid := List.find?_some hu
  simp only [decide_eq_true_eq] at hid
  -- there is one timeout of each id
  have hsame : u = t :=
    List.inj_on_of_nodup_map c.distinct (List.mem_of_find?_eq_some hu) ht hid.1
  rw [take, hu, Option.map_some, hsame]

end Clock

end Timeouts
