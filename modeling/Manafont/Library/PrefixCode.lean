import Mathlib.Data.List.Infix
import Mathlib.Data.Set.Defs

/-!
# Words that end by themselves

A set of words of which none is empty and none begins another.  Where words of such a set stand
back to back the first of them can be told apart (`PrefixFree.append_prefix_append_iff`), so one
row of words begins another as letters exactly when it does as words
(`PrefixFree.flatten_prefix_iff`).
-/

namespace PrefixCode

variable {α β γ δ : Type*}

/-- No word is empty, and none begins another. -/
structure PrefixFree (S : Set (List β)) : Prop where
  nil_not_mem : [] ∉ S
  eq_of_begins : ∀ u ∈ S, ∀ v ∈ S, u <+: v → u = v

section PrefixFree

variable {S : Set (List β)} {u v s t : List β} {us vs : List (List β)}

/-- **The first word is told apart** from what stands behind it. -/
theorem PrefixFree.append_prefix_append_iff (h : PrefixFree S) (hu : u ∈ S) (hv : v ∈ S) :
    u ++ s <+: v ++ t ↔ u = v ∧ s <+: t := by
  constructor
  · intro hbegins
    have hu' : u <+: v ++ t := (List.prefix_append u s).trans hbegins
    have heq : u = v := by
      rcases List.prefix_or_prefix_of_prefix hu' (List.prefix_append v t) with huv | hvu
      · exact h.eq_of_begins u hu v hv huv
      · exact (h.eq_of_begins v hv u hu hvu).symm
    subst heq
    exact ⟨rfl, (List.prefix_append_right_inj u).mp hbegins⟩
  · rintro ⟨rfl, hst⟩
    exact (List.prefix_append_right_inj u).mpr hst

/-- **One row of words begins another** as letters exactly when it does as words. -/
theorem PrefixFree.flatten_prefix_iff (h : PrefixFree S) (hu : ∀ u ∈ us, u ∈ S)
    (hv : ∀ v ∈ vs, v ∈ S) : us.flatten <+: vs.flatten ↔ us <+: vs := by
  induction us generalizing vs with
  | nil => exact ⟨fun _ => List.nil_prefix, fun _ => List.nil_prefix⟩
  | cons u us ih =>
    have hus : ∀ w ∈ us, w ∈ S := fun w hw => hu w (List.mem_cons_of_mem u hw)
    cases vs with
    | nil =>
      have hne : u ≠ [] := fun he => h.nil_not_mem (he ▸ hu u List.mem_cons_self)
      constructor
      · intro hbegins
        rw [List.flatten_nil, List.prefix_nil, List.flatten_cons] at hbegins
        exact absurd (List.append_eq_nil_iff.mp hbegins).1 hne
      · intro hbegins
        cases List.prefix_nil.mp hbegins
    | cons v vs =>
      have hvs : ∀ w ∈ vs, w ∈ S := fun w hw => hv w (List.mem_cons_of_mem v hw)
      rw [List.flatten_cons, List.flatten_cons, h.append_prefix_append_iff
        (hu u List.mem_cons_self) (hv v List.mem_cons_self), ih hus hvs, List.cons_prefix_cons]

end PrefixFree

theorem map_prefix_map_iff {f f' : α → γ} {g g' : α → δ} {as bs : List α}
    (h : ∀ a ∈ as, ∀ b ∈ bs, f a = f' b ↔ g a = g' b) :
    as.map f <+: bs.map f' ↔ as.map g <+: bs.map g' := by
  induction as generalizing bs with
  | nil => exact ⟨fun _ => List.nil_prefix, fun _ => List.nil_prefix⟩
  | cons a as ih =>
    cases bs with
    | nil => simp
    | cons b bs =>
      have hrest := ih fun x hx y hy =>
        h x (List.mem_cons_of_mem a hx) y (List.mem_cons_of_mem b hy)
      rw [List.map_cons, List.map_cons, List.map_cons, List.map_cons, List.cons_prefix_cons,
        List.cons_prefix_cons, h a List.mem_cons_self b List.mem_cons_self, hrest]

end PrefixCode
