/-!
# Slots

A part of a state that can be read and replaced without touching the rest.
-/

namespace SignedCall

/-- A part of a state. -/
structure Slot (σ τ : Type) where
  get : σ → τ
  set : τ → σ → σ
  get_set : ∀ x s, get (set x s) = x
  set_get : ∀ s, set (get s) s = s
  set_set : ∀ x y s, set x (set y s) = set x s

namespace Slot

variable {σ τ υ : Type}

/-- The whole state. -/
def whole : Slot σ σ where
  get s := s
  set x _ := x
  get_set _ _ := rfl
  set_get _ := rfl
  set_set _ _ _ := rfl

/-- A part of a part. -/
def comp (outer : Slot σ τ) (inner : Slot τ υ) : Slot σ υ where
  get s := inner.get (outer.get s)
  set x s := outer.set (inner.set x (outer.get s)) s
  get_set x s := by rw [outer.get_set, inner.get_set]
  set_get s := by rw [inner.set_get, outer.set_get]
  set_set x y s := by rw [outer.get_set, inner.set_set, outer.set_set]

/-- The first part of a pair. -/
def fst : Slot (τ × υ) τ where
  get := Prod.fst
  set x s := (x, s.2)
  get_set _ _ := rfl
  set_get _ := rfl
  set_set _ _ _ := rfl

/-- The second part of a pair. -/
def snd : Slot (τ × υ) υ where
  get := Prod.snd
  set x s := (s.1, x)
  get_set _ _ := rfl
  set_get _ := rfl
  set_set _ _ _ := rfl

/-- One of many parts that are told apart by an index. -/
def entry {ι : Type} [DecidableEq ι] (i : ι) : Slot (ι → τ) τ where
  get s := s i
  set x s := fun j => if j = i then x else s j
  get_set _ _ := if_pos rfl
  set_get s := funext fun j => by by_cases h : j = i <;> simp [h]
  set_set x y s := funext fun j => by by_cases h : j = i <;> simp [h]

/-- Changes a part. -/
def modify (slot : Slot σ τ) (f : τ → τ) (s : σ) : σ := slot.set (f (slot.get s)) s

/-- What was changed in a slot is found changed. -/
theorem get_modify (slot : Slot σ τ) (f : τ → τ) (s : σ) : slot.get (slot.modify f s) = f (slot.get s) :=
  slot.get_set _ _

end Slot

end SignedCall
