import Mathlib.Data.List.Nodup
import AlpcResearch.Resource.Table

/-!
# What a table has gained

`Grown t t' rs` lists what is live in `t'` beyond what was live in `t`. An
acquisition adds to the list and a release takes from it; the order does not
matter.
-/

namespace Resource

variable {α : Type} {t t' t'' : Table α} {r : Ref} {rs rs' : List Ref}

structure Table.Grown (t t' : Table α) (rs : List Ref) : Prop where
  live : ∀ r, r ∈ t'.live ↔ r ∈ t.live ∨ r ∈ rs
  fresh : ∀ r ∈ rs, r ∉ t.live
  nodup : rs.Nodup

namespace Table.Grown

theorem refl (t : Table α) : t.Grown t [] where
  live := by simp
  fresh := by simp
  nodup := .nil

theorem perm (h : t.Grown t' rs) (hp : rs.Perm rs') : t.Grown t' rs' where
  live r := by rw [h.live, hp.mem_iff]
  fresh r hr := h.fresh r (hp.mem_iff.mpr hr)
  nodup := hp.nodup_iff.mp h.nodup

theorem congr (h : t.Grown t' rs) (hl : t''.live = t'.live) : t.Grown t'' rs where
  live := hl ▸ h.live
  fresh := h.fresh
  nodup := h.nodup

theorem trans (h : t.Grown t' rs) (h' : t'.Grown t'' rs') : t.Grown t'' (rs' ++ rs) where
  live r := by rw [h'.live, h.live, List.mem_append, or_assoc, or_comm (a := r ∈ rs)]
  fresh r hr := by
    rcases List.mem_append.mp hr with hr | hr
    · exact fun hlive => h'.fresh r hr ((h.live r).mpr (.inl hlive))
    · exact h.fresh r hr
  nodup := by
    refine List.nodup_append.mpr ⟨h'.nodup, h.nodup, fun r hr q hq he => ?_⟩
    exact h'.fresh r hr ((h.live r).mpr (.inr (he ▸ hq)))

theorem acquire (h : t.Grown t' rs) (hr : t'.Fresh r) (a : α) :
    t.Grown (t'.acquire r.name a) (r :: rs) := by
  have hnew : r ∉ t'.live := fun hlive => by
    obtain ⟨b, hb⟩ := Table.mem_live.mp hlive
    cases (Table.get?_fresh hr).symm.trans hb
  have hold := fun hr => hnew ((h.live r).mpr hr)
  constructor
  case live =>
    intro q
    rw [Table.live_acquire hr, Set.mem_insert_iff, h.live, List.mem_cons, or_left_comm]
  case fresh =>
    intro q hq
    rcases List.mem_cons.mp hq with rfl | hq
    · exact fun hlive => hold (.inl hlive)
    · exact h.fresh q hq
  case nodup => exact List.nodup_cons.mpr ⟨fun hmem => hold (.inr hmem), h.nodup⟩

theorem get? (h : t.Grown t' rs) (hr : r ∈ rs) : ∃ a, t'.get? r = some a :=
  Table.mem_live.mp ((h.live r).mpr (.inr hr))

theorem remove (h : t.Grown t' (r :: rs)) (hl : t''.live = t'.live \ {r}) : t.Grown t'' rs := by
  obtain ⟨hnot, hnodup⟩ := List.nodup_cons.mp h.nodup
  have hfresh := h.fresh r List.mem_cons_self
  constructor
  case live =>
    intro q
    rw [hl, Set.mem_sdiff, Set.mem_singleton_iff, h.live, List.mem_cons]
    constructor
    · rintro ⟨hq | hq | hq, hne⟩
      · exact .inl hq
      · exact absurd hq hne
      · exact .inr hq
    · rintro (hq | hq)
      · exact ⟨.inl hq, fun he => hfresh (he ▸ hq)⟩
      · exact ⟨.inr (.inr hq), fun he => hnot (he ▸ hq)⟩
  case fresh => exact fun q hq => h.fresh q (List.mem_cons_of_mem r hq)
  case nodup => exact hnodup

theorem release (h : t.Grown t' (r :: rs)) : t.Grown (t'.release r.name) rs := by
  obtain ⟨a, ha⟩ := h.get? List.mem_cons_self
  exact h.remove (Table.live_release ha)

theorem live_eq (h : t.Grown t' rs) (h' : t.Grown t'' rs) : t''.live = t'.live := by
  ext r
  rw [h.live, h'.live]

theorem live_eq_iff (h : t.Grown t' rs) : t'.live = t.live ↔ rs = [] := by
  constructor
  · intro hlive
    refine List.eq_nil_iff_forall_not_mem.mpr fun r hr => h.fresh r hr ?_
    rw [← hlive]
    exact (h.live r).mpr (.inr hr)
  · rintro rfl
    ext r
    simp [h.live]

end Table.Grown

end Resource
