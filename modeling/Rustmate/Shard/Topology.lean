import Rustmate.Packet
import Mathlib.Data.Nat.Bitwise

/-!
# The shards

`ShardTopology` of `src/shard.rs`: how many shards there are, and which of them a hash falls on. The hash is
`ahash`, outside the repository.
-/

namespace Rustmate.Shard

/-- The number of shards, and the mask that stands for the remainder when it is a power of two. -/
structure ShardTopology where
  shard_count : ℕ
  shard_mask : Option ℕ
  deriving DecidableEq, Repr

namespace ShardTopology

/-- `is_power_of_two`. -/
def isPowerOfTwo (n : ℕ) : Bool := 2^n.log2 = n

/-- `ShardTopology::new`. -/
def new (shard_count : ℕ) : ShardTopology :=
  let shard_count := max shard_count 1
  { shard_count, shard_mask := if isPowerOfTwo shard_count then some (shard_count - 1) else none }

/-- What `shard_for_hash` and `shard_for_sequence` do with their number. -/
def shardFor (self : ShardTopology) (n : ℕ) : ℕ :=
  match self.shard_mask with
  | some mask => n &&& mask
  | none => n % self.shard_count

/-- `shard_for_hash`. -/
def shardForHash (self : ShardTopology) (hash : BitVec 64) : ℕ := self.shardFor hash.toNat

/-- `shard_for_sequence`. -/
def shardForSequence (self : ShardTopology) (sequence : ℕ) : ℕ := self.shardFor sequence

/-- The mask is the remainder, so the shard is the remainder either way. -/
theorem shardFor_eq (shard_count n : ℕ) : (new shard_count).shardFor n = n % max shard_count 1 := by
  unfold new shardFor
  by_cases hpower : isPowerOfTwo (max shard_count 1) = true
  · simp only [if_pos hpower]
    have hpow : 2^(max shard_count 1).log2 = max shard_count 1 := by simpa [isPowerOfTwo] using hpower
    rw [← hpow, Nat.and_two_pow_sub_one_eq_mod]
  · simp only [if_neg hpower]

/-- There is a shard under every number. -/
theorem shardFor_lt (shard_count n : ℕ) : (new shard_count).shardFor n < max shard_count 1 := by
  rw [shardFor_eq]
  exact Nat.mod_lt _ (by omega)

end ShardTopology

/-- `shard_for_flow_key`. -/
def shardForFlowKey (routeHash : FlowKey → BitVec 64) (key : FlowKey) (shard_count : ℕ) : ℕ :=
  (ShardTopology.new shard_count).shardForHash (routeHash key)

/-- A flow key has one of the shards. -/
theorem shardForFlowKey_lt (routeHash : FlowKey → BitVec 64) (key : FlowKey) {shard_count : ℕ}
    (h : 0 < shard_count) : shardForFlowKey routeHash key shard_count < shard_count := by
  have := ShardTopology.shardFor_lt shard_count (routeHash key).toNat
  rw [show max shard_count 1 = shard_count by omega] at this
  exact this

end Rustmate.Shard
