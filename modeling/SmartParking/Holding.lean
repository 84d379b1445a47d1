import Mathlib.Logic.Function.Basic

-- Resources that are available or held, and holders that hold at most one
-- resource each.
namespace Holding

variable {Holder Resource : Type}

-- No resource has two holders.
def Exclusive (held : Holder → Option Resource) : Prop :=
  ∀ a b resource, held a = some resource → held b = some resource → a = b

def Unheld (held : Holder → Option Resource) (resource : Resource) : Prop :=
  ∀ holder, held holder ≠ some resource

-- No resource has two holders, and only unheld resources are given out.
structure Sound (available : Resource → Prop) (held : Holder → Option Resource) : Prop where
  exclusive : Exclusive held
  unheld : ∀ resource, available resource → Unheld held resource

variable [DecidableEq Holder] {available available' : Resource → Prop}
  {held : Holder → Option Resource} {a b : Holder} {resource : Resource}

theorem unheld_update {next : Option Resource} (h : ∀ holder ≠ a, held holder ≠ some resource)
    (hnext : next ≠ some resource) : Unheld (Function.update held a next) resource := by
  intro holder
  by_cases ha : holder = a
  · subst holder
    rwa [Function.update_self]
  · rw [Function.update_of_ne ha]
    exact h holder ha

theorem exclusive_update {next : Option Resource} (h : Exclusive held)
    (hnext : ∀ resource, next = some resource → ∀ holder ≠ a, held holder ≠ some resource) :
    Exclusive (Function.update held a next) := by
  intro x y resource hx hy
  by_cases hxa : x = a <;> by_cases hya : y = a
  · rw [hxa, hya]
  · subst x
    rw [Function.update_self] at hx
    rw [Function.update_of_ne hya] at hy
    exact absurd hy (hnext resource hx y hya)
  · subst y
    rw [Function.update_self] at hy
    rw [Function.update_of_ne hxa] at hx
    exact absurd hx (hnext resource hy x hxa)
  · rw [Function.update_of_ne hxa] at hx
    rw [Function.update_of_ne hya] at hy
    exact h x y resource hx hy

namespace Sound

-- An available resource goes to a holder and is available no more.
theorem acquire (h : Sound available held) (hr : available resource)
    (ha : ∀ other, available' other → available other ∧ other ≠ resource) :
    Sound available' (Function.update held a (some resource)) where
  exclusive := exclusive_update h.exclusive fun _ he holder _ => by
    cases he
    exact h.unheld resource hr holder
  unheld other ho := by
    obtain ⟨hav, hne⟩ := ha other ho
    exact unheld_update (fun holder _ => h.unheld other hav holder)
      fun he => hne (Option.some.inj he).symm

-- A holder lets its resource go, and it may become available.
theorem release (h : Sound available held) (hr : held a = some resource)
    (ha : ∀ other, available' other → available other ∨ other = resource) :
    Sound available' (Function.update held a none) where
  exclusive := exclusive_update h.exclusive fun _ he => by cases he
  unheld other ho := by
    refine unheld_update (fun holder hne hheld => ?_) (by simp)
    rcases ha other ho with hav | rfl
    · exact h.unheld other hav holder hheld
    · exact hne (h.exclusive holder a other hheld hr)

-- A holder hands its resource to another.
theorem transfer (h : Sound available held) (hr : held a = some resource)
    (ha : ∀ other, available' other → available other) :
    Sound available' (Function.update (Function.update held a none) b (some resource)) where
  exclusive := by
    refine exclusive_update (exclusive_update h.exclusive fun _ he => by cases he) ?_
    intro other ho holder _ hheld
    cases ho
    by_cases hha : holder = a
    · subst holder
      rw [Function.update_self] at hheld
      cases hheld
    · rw [Function.update_of_ne hha] at hheld
      exact hha (h.exclusive holder a resource hheld hr)
  unheld other ho := by
    have hav := h.unheld other (ha other ho)
    have hne : some resource ≠ some other := fun he => hav a (he ▸ hr)
    exact unheld_update (fun holder _ => unheld_update (fun holder _ => hav holder) (by simp) holder)
      hne

end Sound

end Holding
