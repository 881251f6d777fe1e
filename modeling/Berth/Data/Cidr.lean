import Mathlib.Algebra.Order.Ring.Int

/-!
Blocks of addresses: those that agree in all bits but the last few. Two blocks are one inside the
other or apart, and a list of blocks covers another one if each of the other's is inside one of its.
-/

namespace Cidr

structure Block where
  network : Nat
  hostBits : Nat
  deriving DecidableEq

/-- The block of an address, with this many bits free. -/
def Block.of (address hostBits : Nat) : Block := ⟨address / 2 ^ hostBits, hostBits⟩

namespace Block

def Has (block : Block) (address : Nat) : Prop := address / 2 ^ block.hostBits = block.network

instance (block : Block) (address : Nat) : Decidable (block.Has address) :=
  inferInstanceAs (Decidable (address / 2 ^ block.hostBits = block.network))

def Within (inner outer : Block) : Prop :=
  inner.hostBits ≤ outer.hostBits ∧
    inner.network / 2 ^ (outer.hostBits - inner.hostBits) = outer.network

instance (inner outer : Block) : Decidable (inner.Within outer) :=
  inferInstanceAs (Decidable (_ ∧ _))

variable {inner outer : Block} {address : Nat}

theorem Within.has (within : inner.Within outer) (has : inner.Has address) : outer.Has address := by
  obtain ⟨fewer, same⟩ := within
  have split : outer.hostBits = inner.hostBits + (outer.hostBits - inner.hostBits) := by omega
  calc address / 2 ^ outer.hostBits
      = address / 2 ^ inner.hostBits / 2 ^ (outer.hostBits - inner.hostBits) := by
        rw [Nat.div_div_eq_div_mul, ← Nat.pow_add, ← split]
    _ = inner.network / 2 ^ (outer.hostBits - inner.hostBits) := by rw [has]
    _ = outer.network := same

end Block

/-- Some block of the list has the address. -/
def InSome (blocks : List Block) (address : Nat) : Prop := ∃ block ∈ blocks, block.Has address

instance (blocks : List Block) (address : Nat) : Decidable (InSome blocks address) :=
  decidable_of_iff (blocks.any fun block => decide (block.Has address)) (by simp [InSome])

def Covers (outer inner : List Block) : Prop :=
  ∀ block ∈ inner, ∃ cover ∈ outer, block.Within cover

instance (outer inner : List Block) : Decidable (Covers outer inner) :=
  decidable_of_iff (inner.all fun block => outer.any fun cover => decide (block.Within cover))
    (by simp [Covers])

variable {outer inner : List Block} {address : Nat}

theorem Covers.inSome (covers : Covers outer inner) (isIn : InSome inner address) :
    InSome outer address := by
  obtain ⟨block, member, has⟩ := isIn
  obtain ⟨cover, isCover, within⟩ := covers block member
  exact ⟨cover, isCover, within.has has⟩

theorem inSome_append : InSome (outer ++ inner) address ↔
    InSome outer address ∨ InSome inner address := by
  simp [InSome, or_and_right, exists_or]

theorem inSome_cons {block : Block} : InSome (block :: inner) address ↔
    block.Has address ∨ InSome inner address := by
  simp [InSome]

theorem not_inSome_nil : ¬ InSome [] address := by simp [InSome]

end Cidr
