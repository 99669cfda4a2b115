import Mathlib.Data.List.Nodup

/-!
# What stands before what in a list

`StandsBefore l a b` says that `a` stands somewhere before `b` in `l`. In a list without repetitions it
is a strict order in which any two members are comparable, and splitting the list at `b` puts
exactly the members that stand before it into the first part.
-/

namespace OraDesktop

open List

/-- `a` stands before `b` in `l`. -/
def StandsBefore {α : Type} (l : List α) (a b : α) : Prop := [a, b].Sublist l

namespace StandsBefore

variable {α β : Type} {l l' : List α} {a b : α}

theorem of_mem_left {pre post : List α} (h : a ∈ pre) : StandsBefore (pre ++ b :: post) a b :=
  (singleton_sublist.mpr h).append (singleton_sublist.mpr mem_cons_self)

theorem mem_left {pre post : List α} (hnodup : (pre ++ b :: post).Nodup)
    (h : StandsBefore (pre ++ b :: post) a b) : a ∈ pre := by
  obtain ⟨l₁, l₂, heq, h₁, h₂⟩ := sublist_append_iff.mp h
  have hpost : b ∉ post := (nodup_cons.mp (nodup_append.mp hnodup).2.1).1
  rcases l₁ with _ | ⟨c, l₁⟩
  · -- the pair would stand in `b :: post`, with `b` in `post`
    rw [nil_append] at heq
    subst heq
    rcases sublist_cons_iff.mp h₂ with h₂ | ⟨r, hr, hsub⟩
    · exact absurd (h₂.subset (by simp)) hpost
    · cases hr
      exact absurd (hsub.subset (by simp)) hpost
  · obtain ⟨rfl, _⟩ := cons_eq_cons.mp heq
    exact h₁.subset mem_cons_self

theorem total (ha : a ∈ l) (hb : b ∈ l) (hne : a ≠ b) : StandsBefore l a b ∨ StandsBefore l b a := by
  obtain ⟨pre, post, rfl⟩ := append_of_mem hb
  rcases mem_append.mp ha with ha | ha
  · exact .inl (of_mem_left ha)
  · right
    have ha' : a ∈ post := (mem_cons.mp ha).resolve_left hne
    exact sublist_append_of_sublist_right
      ((singleton_sublist.mpr ha').cons_cons b)

theorem asymm (hnodup : l.Nodup) (h : StandsBefore l a b) : ¬StandsBefore l b a := by
  intro h'
  have hb : b ∈ l := h.subset (by simp)
  obtain ⟨pre, post, rfl⟩ := append_of_mem hb
  have ha : a ∈ pre := mem_left hnodup h
  obtain ⟨pre₁, pre₂, rfl⟩ := append_of_mem ha
  rw [append_assoc, cons_append] at h' hnodup
  have hb' : b ∈ pre₁ := mem_left hnodup h'
  have hdisjoint := (nodup_append.mp hnodup).2.2 b hb' b (by simp)
  exact hdisjoint rfl

theorem filterMap {f : α → Option β} {x y : β} (h : StandsBefore l a b) (ha : f a = some x)
    (hb : f b = some y) : StandsBefore (l.filterMap f) x y := by
  have hsub := List.Sublist.filterMap f h
  simp only [filterMap_cons, ha, hb, filterMap_nil] at hsub
  exact hsub

theorem append_right (h : StandsBefore l a b) : StandsBefore (l ++ l') a b :=
  sublist_append_of_sublist_left h

theorem append_of_mem (ha : a ∈ l) (hb : b ∈ l') : StandsBefore (l ++ l') a b :=
  (singleton_sublist.mpr ha).append (singleton_sublist.mpr hb)

end StandsBefore

/-- In a list that is ordered by an asymmetric relation, the last member with a property is the
one that all others with it are below. -/
theorem getLast?_filter_eq_some_iff {α : Type} {R : α → α → Prop} {l : List α} {p : α → Bool} {a : α}
    (hl : l.Pairwise R) (hasymm : ∀ x y, R x y → ¬R y x) :
    (l.filter p).getLast? = some a ↔
      a ∈ l ∧ p a = true ∧ ∀ b ∈ l, p b = true → b = a ∨ R b a := by
  have hbelow : ∀ {c}, (l.filter p).getLast? = some c → ∀ b ∈ l, p b = true → b = c ∨ R b c := by
    intro c hc b hb hpb
    obtain ⟨ys, hys⟩ := List.getLast?_eq_some_iff.mp hc
    have hmem : b ∈ ys ++ [c] := hys ▸ mem_filter.mpr ⟨hb, hpb⟩
    have hpairwise : (ys ++ [c]).Pairwise R := hys ▸ hl.filter p
    rcases mem_append.mp hmem with hmem | hmem
    · exact .inr ((pairwise_append.mp hpairwise).2.2 b hmem c mem_cons_self)
    · exact .inl (mem_singleton.mp hmem)
  constructor
  · intro h
    obtain ⟨hmem, hp⟩ := mem_filter.mp (mem_of_getLast? h)
    exact ⟨hmem, hp, hbelow h⟩
  · rintro ⟨hmem, hp, hmax⟩
    rcases hlast : (l.filter p).getLast? with _ | c
    · have hempty := List.getLast?_eq_none_iff.mp hlast
      exact absurd (mem_filter.mpr ⟨hmem, hp⟩) (by simp [hempty])
    obtain ⟨hc, hpc⟩ := mem_filter.mp (mem_of_getLast? hlast)
    rcases hbelow hlast a hmem hp with rfl | hac
    · rfl
    · rcases hmax c hc hpc with rfl | hca
      · rfl
      · exact absurd hca (hasymm a c hac)

end OraDesktop
