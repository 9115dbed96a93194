/-
# The key cache

Reading keys is remembered by the material they were read from.  A ring of keys carries
the number of the reading that made it, so that two answers can be told to be the same
ring.  Material that cannot be read leaves no trace, and closing forgets every ring but
not how many there were.

That a remembered ring is what its material reads as is part of the cache, so no caller
has to ask where a ring came from.
-/
import ImageTrust.Keys.Bundle

namespace ImageTrust

/-- Keys that were read together. -/
structure KeyRing where
  serial : Nat
  keys : List PublicKey
deriving DecidableEq

/-- The rings by their material, and how many were ever made. -/
structure KeyCache where
  rings : List (Bytes × KeyRing)
  made : Nat
  sound : ∀ e ∈ rings, KeyBundle.load e.1 = .ok e.2.keys
deriving DecidableEq

namespace KeyCache

/-- A cache that nothing was read with. -/
def empty : KeyCache := ⟨[], 0, fun _ h => nomatch h⟩

/-- The cache with one more ring. -/
def remember (c : KeyCache) (material : Bytes) (keys : List PublicKey)
    (h : KeyBundle.load material = .ok keys) : KeyCache where
  rings := (material, ⟨c.made, keys⟩) :: c.rings
  made := c.made + 1
  sound := fun e he => by
    rcases List.mem_cons.mp he with rfl | he
    · exact h
    · exact c.sound e he

/-- The ring for this material, and the cache that remembers it. -/
def ring (c : KeyCache) (material : Bytes) : Except KeyBundle.Unusable (KeyRing × KeyCache) :=
  match c.rings.lookup material with
  | some ring => .ok (ring, c)
  | none =>
    match h : KeyBundle.load material with
    | .ok keys => .ok (⟨c.made, keys⟩, c.remember material keys h)
    | .error why => .error why

/-- The cache without its rings. -/
def close (c : KeyCache) : KeyCache := ⟨[], c.made, fun _ h => nomatch h⟩

/-- A ring holds what its material reads as, remembered or not. -/
theorem ring_keys (c : KeyCache) (material : Bytes) :
    (c.ring material).map (·.1.keys) = KeyBundle.load material := by
  unfold ring
  split
  · rename_i ring hring
    have hmem : (material, ring) ∈ c.rings := by
      obtain ⟨before, after, hrings, -⟩ := List.lookup_eq_some_iff.mp hring
      simp [hrings]
    exact (c.sound _ hmem).symm
  · split <;> rename_i hload <;> exact hload.symm

end KeyCache

end ImageTrust
