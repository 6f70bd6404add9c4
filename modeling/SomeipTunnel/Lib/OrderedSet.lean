import Mathlib.Data.List.Basic
import Mathlib.Data.List.TakeWhile

/-!
# A unique-key ordered set that is driven by a comparator

`emplace lt S x` is the insertion of a tree-based set (C++ `std::set`) seen on the in-order list
`S` of its elements. The search descends with `lt x y` only: it goes left where `x` is before `y`
and right otherwise, so it ends in the gap behind the elements that `x` is not before. The element
in front of the gap is then compared once more, the other way round: if it is not before `x`, it
counts as equivalent and nothing is inserted.

The comparator is a Boolean function and nothing is assumed about it: a comparator that is no
strict weak order is a fact about the program that uses the set, and the lemmas below say what the
search finds without it.
-/

namespace OrderedSet

open List

variable {α : Type*} (lt : α → α → Bool)

/-- The gap `(pre, post)` at which `x` is inserted, or `none` if an equivalent element is found. -/
def emplace (S : List α) (x : α) : Option (List α × List α) :=
  let pre := S.takeWhile fun y => !lt x y
  let post := S.dropWhile fun y => !lt x y
  match pre.getLast? with
  | none => some (pre, post)
  | some p => if lt p x then some (pre, post) else none

/-- The elements after an insertion. -/
def insert (S : List α) (x : α) : List α :=
  match emplace lt S x with
  | none => S
  | some (pre, post) => pre ++ x :: post

variable {lt} {S pre post : List α} {x : α}

/-- What the search finds: the gap splits the set, `x` is before nothing in front of it and before
the element behind it, and the element in front is before `x`. -/
structure Gap (lt : α → α → Bool) (S : List α) (x : α) (pre post : List α) : Prop where
  split : S = pre ++ post
  pre_not : ∀ y ∈ pre, lt x y = false
  next : ∀ n ∈ post.head?, lt x n = true
  prev : ∀ p ∈ pre.getLast?, lt p x = true

theorem emplace_eq_some (h : emplace lt S x = some (pre, post)) : Gap lt S x pre post := by
  unfold emplace at h
  simp only at h
  have hsplit : ∀ pre post, S.takeWhile (fun y => !lt x y) = pre →
      S.dropWhile (fun y => !lt x y) = post → (∀ p ∈ pre.getLast?, lt p x = true) →
      Gap lt S x pre post := by
    rintro pre post rfl rfl hp
    refine ⟨takeWhile_append_dropWhile.symm, fun y hy => ?_, fun n hn => ?_, hp⟩
    · simpa using mem_takeWhile_imp hy
    · have := List.head?_dropWhile_not (fun y => !lt x y) S
      rw [Option.mem_def.mp hn] at this
      simpa using this
  rcases hl : (S.takeWhile fun y => !lt x y).getLast? with _ | p
  · rw [hl] at h
    cases h
    exact hsplit _ _ rfl rfl (by simp [hl])
  · rw [hl] at h
    simp only at h
    split_ifs at h with hp
    cases h
    refine hsplit _ _ rfl rfl fun q hq => ?_
    rw [hl] at hq
    cases hq
    exact hp

/-- Nothing is inserted only next to an element that is equivalent to `x`. -/
theorem emplace_eq_none (h : emplace lt S x = none) : ∃ p ∈ S, lt x p = false ∧ lt p x = false := by
  unfold emplace at h
  simp only at h
  rcases hl : (S.takeWhile fun y => !lt x y).getLast? with _ | p
  · rw [hl] at h
    cases h
  · rw [hl] at h
    simp only at h
    split_ifs at h with hp
    have hmem : p ∈ S.takeWhile fun y => !lt x y := mem_of_getLast? hl
    refine ⟨p, takeWhile_subset _ hmem, ?_, by simpa using hp⟩
    simpa using mem_takeWhile_imp hmem

/-- The search finds a gap with the properties of `Gap`: there is only one. -/
theorem emplace_of_gap (h : Gap lt S x pre post) : emplace lt S x = some (pre, post) := by
  have hpre : S.takeWhile (fun y => !lt x y) = pre := by
    rw [h.split, takeWhile_append_of_pos fun y hy => by simp [h.pre_not y hy]]
    rcases post with _ | ⟨n, post⟩
    · simp
    · simp [h.next n (by simp)]
  have hpost : S.dropWhile (fun y => !lt x y) = post := by
    rw [h.split, dropWhile_append_of_pos fun y hy => by simp [h.pre_not y hy]]
    rcases post with _ | ⟨n, post⟩
    · simp
    · simp [h.next n (by simp)]
  unfold emplace
  simp only [hpre, hpost]
  rcases hl : pre.getLast? with _ | p
  · rfl
  · simp [h.prev p hl]

theorem insert_of_gap (h : Gap lt S x pre post) : insert lt S x = pre ++ x :: post := by
  simp only [insert, emplace_of_gap h]

/-- An insertion leaves the set as it was or puts `x` into a gap. -/
theorem insert_cases (lt : α → α → Bool) (S : List α) (x : α) :
    insert lt S x = S ∨ ∃ pre post, Gap lt S x pre post ∧ insert lt S x = pre ++ x :: post := by
  rcases h : emplace lt S x with _ | ⟨pre, post⟩
  · exact Or.inl (by simp only [insert, h])
  · exact Or.inr ⟨pre, post, emplace_eq_some h, by simp only [insert, h]⟩

/-- What no element is equivalent to goes into a gap. -/
theorem exists_gap (h : ∀ y ∈ S, lt x y = true ∨ lt y x = true) :
    ∃ pre post, Gap lt S x pre post ∧ insert lt S x = pre ++ x :: post := by
  rcases hemp : emplace lt S x with _ | ⟨pre, post⟩
  · obtain ⟨p, hp, h₁, h₂⟩ := emplace_eq_none hemp
    rcases h p hp with hlt | hlt
    · rw [h₁] at hlt
      cases hlt
    · rw [h₂] at hlt
      cases hlt
  · exact ⟨pre, post, emplace_eq_some hemp, by simp only [insert, hemp]⟩

/-- An element that is new goes to its place in an ordered list. -/
theorem pairwise_insert (htrans : ∀ a b c, lt a b = true → lt b c = true → lt a c = true)
    (hS : S.Pairwise fun a b => lt a b = true) (h : ∀ y ∈ S, lt x y = true ∨ lt y x = true) :
    (insert lt S x).Pairwise fun a b => lt a b = true := by
  obtain ⟨pre, post, hgap, heq⟩ := exists_gap h
  rw [heq]
  rw [hgap.split, pairwise_append] at hS
  have hpre : ∀ y ∈ pre, lt y x = true := by
    intro y hy
    refine (h y (hgap.split ▸ mem_append_left _ hy)).resolve_left fun hlt => ?_
    rw [hgap.pre_not y hy] at hlt
    cases hlt
  have hpost : ∀ y ∈ post, lt x y = true := by
    rcases post with _ | ⟨n, post⟩
    · exact fun _ hy => nomatch hy
    · have hn := hgap.next n rfl
      rintro y hy
      rcases mem_cons.mp hy with rfl | hy
      · exact hn
      · exact htrans _ _ _ hn ((pairwise_cons.mp hS.2.1).1 y hy)
  refine pairwise_append.mpr ⟨hS.1, pairwise_cons.mpr ⟨hpost, hS.2.1⟩, ?_⟩
  intro y hy z hz
  rcases mem_cons.mp hz with rfl | hz
  · exact hpre y hy
  · exact hS.2.2 y hy z hz

theorem mem_of_mem_insert {y : α} (h : y ∈ insert lt S x) : y = x ∨ y ∈ S := by
  rcases insert_cases lt S x with hS | ⟨pre, post, hgap, hS⟩
  · exact Or.inr (hS ▸ h)
  · rw [hS] at h
    rw [hgap.split]
    simp only [mem_append, mem_cons] at h ⊢
    tauto

theorem mem_insert_of_mem {y : α} (h : y ∈ S) : y ∈ insert lt S x := by
  rcases insert_cases lt S x with hS | ⟨pre, post, hgap, hS⟩
  · exact hS.symm ▸ h
  · rw [hgap.split] at h
    rw [hS]
    simp only [mem_append, mem_cons] at h ⊢
    tauto

/-- The set with the elements of a list, inserted one after the other. -/
def ofList (lt : α → α → Bool) (xs : List α) : List α := xs.foldl (insert lt) []

section total

variable (htri : ∀ x y : α, lt x y = false → lt y x = false → x = y)

include htri in
theorem mem_insert {y : α} : y ∈ insert lt S x ↔ y = x ∨ y ∈ S := by
  refine ⟨mem_of_mem_insert, ?_⟩
  rintro (rfl | h)
  · rcases hemp : emplace lt S y with _ | ⟨pre, post⟩
    · obtain ⟨p, hp, h₁, h₂⟩ := emplace_eq_none hemp
      exact mem_insert_of_mem (htri y p h₁ h₂ ▸ hp)
    · simp only [insert, hemp, mem_append, mem_cons, true_or, or_true]
  · exact mem_insert_of_mem h

include htri in
/-- With a total order, the set has the elements of the list. -/
theorem mem_ofList {xs : List α} {y : α} : y ∈ ofList lt xs ↔ y ∈ xs := by
  have hfold : ∀ S : List α, y ∈ xs.foldl (insert lt) S ↔ y ∈ xs ∨ y ∈ S := by
    induction xs with
    | nil => simp
    | cons x xs ih =>
        intro S
        rw [foldl_cons, ih, mem_insert htri, mem_cons]
        tauto
  rw [ofList, hfold]
  simp

end total

end OrderedSet
