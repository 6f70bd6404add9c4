import Mathlib.Data.List.Perm.Basic

/-!
# Buffers behind addresses

A store keeps a list behind each address. `alloc` puts a list behind a new address, `modify` changes
what is behind one address, and `gather` reads what is behind some addresses one after the other.
Two owners of one address share what is behind it: a change made by one of them is seen by the
other, and `gather` reads it twice.

The rules say when a change is not seen (`gather_alloc`, `gather_modify_of_not_mem`) and that only
the order of what is read depends on the order of the addresses (`gather_perm`).
-/

/-- What is behind the addresses, and the next address. -/
structure Store (α : Type*) where
  content : ℕ → List α
  fresh : ℕ

namespace Store

variable {α : Type*}

def empty : Store α := ⟨fun _ => [], 0⟩

/-- Put a list behind the address `fresh`. -/
def alloc (s : Store α) (as : List α) : Store α :=
  ⟨Function.update s.content s.fresh as, s.fresh + 1⟩

/-- Change what is behind an address. -/
def modify (s : Store α) (p : ℕ) (f : List α → List α) : Store α :=
  { s with content := Function.update s.content p (f (s.content p)) }

/-- What is behind the addresses, one after the other. -/
def gather (s : Store α) (ps : List ℕ) : List α := ps.flatMap s.content

variable {s : Store α} {p q : ℕ} {ps ps' : List ℕ} {as : List α} {f : List α → List α}

@[simp] theorem fresh_alloc : (s.alloc as).fresh = s.fresh + 1 := rfl

@[simp] theorem fresh_modify : (s.modify p f).fresh = s.fresh := rfl

theorem content_alloc_of_lt (h : p < s.fresh) : (s.alloc as).content p = s.content p :=
  Function.update_of_ne (Nat.ne_of_lt h) _ _

@[simp] theorem content_alloc_fresh : (s.alloc as).content s.fresh = as :=
  Function.update_self _ _ _

@[simp] theorem content_modify : (s.modify p f).content p = f (s.content p) :=
  Function.update_self _ _ _

theorem content_modify_of_ne (h : q ≠ p) : (s.modify p f).content q = s.content q :=
  Function.update_of_ne h _ _

@[simp] theorem gather_nil : s.gather [] = [] := rfl

@[simp] theorem gather_append : s.gather (ps ++ ps') = s.gather ps ++ s.gather ps' :=
  List.flatMap_append

@[simp] theorem gather_cons : s.gather (p :: ps) = s.content p ++ s.gather ps :=
  List.flatMap_cons

theorem gather_perm (h : ps.Perm ps') : (s.gather ps).Perm (s.gather ps') := h.flatMap_right _

theorem gather_congr {s' : Store α} (h : ∀ p ∈ ps, s'.content p = s.content p) :
    s'.gather ps = s.gather ps := List.flatMap_congr h

/-- A new address is not seen from the old ones. -/
theorem gather_alloc (h : ∀ p ∈ ps, p < s.fresh) : (s.alloc as).gather ps = s.gather ps :=
  gather_congr fun p hp => content_alloc_of_lt (h p hp)

/-- A change is not seen from the other addresses. -/
theorem gather_modify_of_not_mem (h : p ∉ ps) : (s.modify p f).gather ps = s.gather ps :=
  gather_congr fun _ hq => content_modify_of_ne fun heq => h (heq ▸ hq)

end Store
