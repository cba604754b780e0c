/-!
# Lifetimes

A buffer is alive from the first operator that needs it to the last one, both included, counted in
execution order. Buffers may share bytes only if no operator finds them both alive.
-/

namespace TensorArena

/-- What a planned buffer holds: the data of a tensor, or one of the scratch blocks of an
operator. -/
inductive BufferId where
  | tensor (id : Nat)
  | scratch (operator index : Nat)
  deriving DecidableEq, Repr

namespace BufferId

def text : BufferId → String
  | tensor id => s!"t{id}"
  | scratch operator index => s!"op{operator}.scratch{index}"

/-- The order of buffers: tensors by number, then scratch blocks by operator and index. -/
def le : BufferId → BufferId → Bool
  | tensor a, tensor b => a ≤ b
  | tensor _, scratch .. => true
  | scratch .., tensor _ => false
  | scratch o i, scratch o' i' => o < o' || (o == o' && i ≤ i')

end BufferId

/-- A buffer, the operators that need it, and its size in bytes. -/
structure Lifetime where
  buffer : BufferId
  first : Nat
  last : Nat
  size : Nat
  deriving DecidableEq, Repr

namespace Lifetime

/-- A scratch block, alive only while its operator runs. -/
def scratch (operator index size : Nat) : Lifetime :=
  ⟨.scratch operator index, operator, operator, size⟩

/-- Whether the buffer is needed while operator `k` runs. -/
def AliveAt (l : Lifetime) (k : Nat) : Prop :=
  l.first ≤ k ∧ k ≤ l.last

instance (l : Lifetime) (k : Nat) : Decidable (l.AliveAt k) :=
  inferInstanceAs (Decidable (_ ∧ _))

/-- Whether each of the two starts no later than the other ends. -/
def Overlaps (a b : Lifetime) : Prop :=
  a.first ≤ b.last ∧ b.first ≤ a.last

instance (a b : Lifetime) : Decidable (a.Overlaps b) :=
  inferInstanceAs (Decidable (_ ∧ _))

def text (l : Lifetime) : String :=
  s!"{l.buffer.text} [{l.first}..={l.last}] {l.size} B"

end Lifetime

end TensorArena
