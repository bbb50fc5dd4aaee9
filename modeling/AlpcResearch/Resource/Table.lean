import Mathlib.Data.Set.Insert
import Mathlib.Tactic.Common

/-!
# Tables whose names are reused

A heap hands out addresses and a process hands out handle values; both may
give a released name to a later acquisition. A `Table` records, for each name
in use, the serial number of the acquisition that owns it. A `Ref` is a name
together with that serial: it is what a holder got, and it stops being live
when the name is released, whatever the name is used for afterwards.

Seen through references a table is a finite map whose keys never come back
(`get?_acquire`, `get?_release`, `get?_modify`); the reuse of names shows only
to a holder of a dead reference.
-/

namespace Resource

/-- A name and the acquisition it came from. -/
structure Ref where
  name : Nat
  serial : Nat
  deriving DecidableEq, Repr

/-- The names in use, each with its owner's serial number. Serials are given
out in order, so none in use has reached `next`; finitely many names are in
use at a time. -/
structure Table (α : Type) where
  slots : Nat → Option (Nat × α)
  next : Nat
  bounded : ∀ n s a, slots n = some (s, a) → s < next
  finite : ∃ limit, ∀ n, limit ≤ n → slots n = none

namespace Table

variable {α : Type} {t : Table α} {r q : Ref} {n : Nat} {a b : α}

def empty : Table α := ⟨fun _ => none, 0, by simp, 0, fun _ _ => rfl⟩

def get? (t : Table α) (r : Ref) : Option α :=
  (t.slots r.name).bind fun x => if x.1 = r.serial then some x.2 else none

def live (t : Table α) : Set Ref := {r | (t.get? r).isSome}

/-- The reference the next acquisition under a free name gets. -/
def Fresh (t : Table α) (r : Ref) : Prop := t.slots r.name = none ∧ r.serial = t.next

instance (t : Table α) (r : Ref) : Decidable (t.Fresh r) := by
  unfold Fresh
  exact inferInstanceAs (Decidable (_ ∧ _))

def acquire (t : Table α) (n : Nat) (a : α) : Table α where
  slots m := if m = n then some (t.next, a) else t.slots m
  next := t.next + 1
  bounded m s b h := by
    split at h
    · cases h; omega
    · have := t.bounded m s b h; omega
  finite := by
    obtain ⟨limit, hlimit⟩ := t.finite
    refine ⟨max limit (n + 1), fun m hm => ?_⟩
    rw [if_neg (by omega)]
    exact hlimit m (by omega)

def release (t : Table α) (n : Nat) : Table α where
  slots m := if m = n then none else t.slots m
  next := t.next
  bounded m s b h := by
    split at h
    · cases h
    · exact t.bounded m s b h
  finite := by
    obtain ⟨limit, hlimit⟩ := t.finite
    refine ⟨limit, fun m hm => ?_⟩
    split
    · rfl
    · exact hlimit m hm

def modify (t : Table α) (n : Nat) (f : α → α) : Table α where
  slots m := if m = n then (t.slots m).map fun x => (x.1, f x.2) else t.slots m
  next := t.next
  bounded m s b h := by
    split at h
    · obtain ⟨x, hx, he⟩ := Option.map_eq_some_iff.mp h
      cases he
      exact t.bounded m x.1 x.2 hx
    · exact t.bounded m s b h
  finite := by
    obtain ⟨limit, hlimit⟩ := t.finite
    refine ⟨limit, fun m hm => ?_⟩
    split
    · rw [hlimit m hm]; rfl
    · exact hlimit m hm

theorem exists_fresh (t : Table α) : ∃ r, t.Fresh r := by
  obtain ⟨limit, hlimit⟩ := t.finite
  exact ⟨⟨limit, t.next⟩, hlimit limit (Nat.le_refl _), rfl⟩

theorem get?_eq_some : t.get? r = some a ↔ t.slots r.name = some (r.serial, a) := by
  unfold get?
  cases t.slots r.name with
  | none => simp
  | some x =>
    obtain ⟨s, b⟩ := x
    by_cases h : s = r.serial <;> simp [h]

theorem slots_of_get? (h : t.get? r = some a) : t.slots r.name = some (r.serial, a) :=
  get?_eq_some.mp h

theorem serial_lt_next (h : t.get? r = some a) : r.serial < t.next :=
  t.bounded _ _ _ (slots_of_get? h)

theorem get?_of_next_le (h : t.next ≤ r.serial) : t.get? r = none := by
  cases hget : t.get? r with
  | none => rfl
  | some a => exact absurd (serial_lt_next hget) (Nat.not_lt_of_le h)

theorem mem_live : r ∈ t.live ↔ ∃ a, t.get? r = some a := Option.isSome_iff_exists

/-- Two live references under one name are the same reference. -/
theorem ref_unique (hr : t.get? r = some a) (hq : t.get? q = some b) (hn : r.name = q.name) :
    r = q := by
  have h := (slots_of_get? hr).symm.trans (hn ▸ slots_of_get? hq)
  cases r; cases q
  simp_all

theorem get?_fresh (h : t.Fresh r) : t.get? r = none := by
  simp [get?, h.1]

/-- A reference handed out before is never handed out again. -/
theorem ne_of_fresh (h : t.Fresh r) (hq : t.get? q = some a) : q ≠ r := by
  rintro rfl
  simp [get?_fresh h] at hq

theorem get?_acquire (h : t.Fresh r) :
    (t.acquire r.name a).get? q = if q = r then some a else t.get? q := by
  unfold get? acquire
  by_cases hn : q.name = r.name
  · by_cases hs : q.serial = t.next
    · have : q = r := by cases q; cases r; simp_all [Fresh]
      simp [this, h.2]
    · have : q ≠ r := fun e => hs (e ▸ h.2)
      simp [hn, h.1, this, Ne.symm hs]
  · have : q ≠ r := fun e => hn (e ▸ rfl)
    simp [hn, this]

theorem get?_acquire_self (h : t.Fresh r) : (t.acquire r.name a).get? r = some a := by
  rw [get?_acquire h, if_pos rfl]

/-- What is live stays live. -/
theorem get?_acquire_of_some (h : t.Fresh r) (hq : t.get? q = some b) :
    (t.acquire r.name a).get? q = some b := by
  rw [get?_acquire h, if_neg (ne_of_fresh h hq), hq]

theorem get?_release_other (h : n ≠ q.name) : (t.release n).get? q = t.get? q := by
  simp [get?, release, h.symm]

/-- At one time one reference of each name is live. -/
theorem get?_eq_none_of_name (h : t.get? r = some a) (hn : q.name = r.name) (hne : q ≠ r) :
    t.get? q = none := by
  cases hq : t.get? q with
  | none => rfl
  | some b => exact absurd (ref_unique hq h hn) hne

theorem get?_release (h : t.get? r = some a) :
    (t.release r.name).get? q = if q = r then none else t.get? q := by
  by_cases hn : q.name = r.name
  · have hgone : (t.release r.name).get? q = none := by simp [get?, release, hn]
    rw [hgone]
    split
    · rfl
    · rename_i hne
      exact (get?_eq_none_of_name h hn hne).symm
  · have hne : q ≠ r := fun he => hn (he ▸ rfl)
    rw [get?_release_other (Ne.symm hn), if_neg hne]

/-- A change reaches whatever has the name. -/
theorem get?_modify_name (t : Table α) (n : Nat) (f : α → α) (q : Ref) :
    (t.modify n f).get? q = if q.name = n then (t.get? q).map f else t.get? q := by
  by_cases hn : q.name = n
  · cases hx : t.slots q.name with
    | none => simp [get?, modify, hx]
    | some x => by_cases hs : x.1 = q.serial <;> simp [get?, modify, hn, hn ▸ hx, hs]
  · simp [get?, modify, hn]

theorem get?_modify_other {f : α → α} (h : n ≠ q.name) : (t.modify n f).get? q = t.get? q :=
  (get?_modify_name t n f q).trans (if_neg h.symm)

theorem get?_modify (h : t.get? r = some a) (f : α → α) :
    (t.modify r.name f).get? q = if q = r then some (f a) else t.get? q := by
  by_cases hn : q.name = r.name
  · rw [get?_modify_name, if_pos hn]
    split
    · rename_i he
      rw [he, h, Option.map_some]
    · rename_i hne
      rw [get?_eq_none_of_name h hn hne, Option.map_none]
  · have hne : q ≠ r := fun he => hn (he ▸ rfl)
    rw [get?_modify_other (Ne.symm hn), if_neg hne]

@[simp] theorem next_acquire : (t.acquire n a).next = t.next + 1 := rfl
@[simp] theorem next_release : (t.release n).next = t.next := rfl
@[simp] theorem next_modify (f : α → α) : (t.modify n f).next = t.next := rfl

theorem modify_acquire (f : α → α) : (t.acquire n a).modify n f = t.acquire n (f a) := by
  have hslots : ((t.acquire n a).modify n f).slots = (t.acquire n (f a)).slots := by
    funext m
    by_cases hm : m = n <;> simp [modify, acquire, hm]
  unfold acquire modify at hslots ⊢
  simp only at hslots
  simp only [hslots]

theorem live_acquire (h : t.Fresh r) : (t.acquire r.name a).live = insert r t.live := by
  ext q
  simp only [mem_live, Set.mem_insert_iff, get?_acquire h]
  by_cases he : q = r <;> simp [he]

theorem live_release (h : t.get? r = some a) : (t.release r.name).live = t.live \ {r} := by
  ext q
  simp only [mem_live, Set.mem_sdiff, Set.mem_singleton_iff, get?_release h]
  by_cases he : q = r <;> simp [he]

end Table

end Resource
