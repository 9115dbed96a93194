/-
# Rings — what a verifier remembers, call after call

A verifier is asked for claims, asked for its keys, and closed, in any order.  What it
answers does not depend on what it was asked before, up to the number of the ring.  The
number tells rings apart:

  asked again, nothing closed in between    the same ring
  asked again after it was closed           a ring with a greater number
  the keys cannot be read                   no ring, and nothing is remembered

The invariant is that all remembered rings have numbers from `since` on and below the
number of rings ever made (`KeyCache.Issued`); closing raises `since`.
-/
import ImageTrust.Proofs.Judgement

namespace ImageTrust

variable {σ : Type}

/-! ## The cache -/

namespace KeyCache

variable {c c' : KeyCache} {material other : Bytes} {r : KeyRing} {since : Nat}

/-- A ring that is answered was remembered, or it is new and remembered from now on. -/
theorem ring_cases (hring : c.ring material = .ok (r, c')) :
    (c.rings.lookup material = some r ∧ c' = c) ∨
      (c.rings.lookup material = none ∧ r.serial = c.made ∧
        c'.rings = (material, r) :: c.rings ∧ c'.made = c.made + 1) := by
  unfold ring at hring
  split at hring
  · rename_i found hfound
    cases hring
    exact .inl ⟨hfound, rfl⟩
  · rename_i hnone
    split at hring
    · cases hring
      exact .inr ⟨hnone, rfl, rfl, rfl⟩
    · cases hring

theorem ring_of_lookup (hfound : c.rings.lookup material = some r) :
    c.ring material = .ok (r, c) := by
  unfold ring
  split
  · rename_i found hlookup
    rw [hfound] at hlookup
    cases hlookup
    rfl
  · rename_i hnone
    rw [hfound] at hnone
    cases hnone

theorem lookup_of_ring (hring : c.ring material = .ok (r, c')) :
    c'.rings.lookup material = some r := by
  rcases ring_cases hring with ⟨hfound, rfl⟩ | ⟨-, -, hrings, -⟩
  · exact hfound
  · rw [hrings]
    exact List.lookup_cons_self

/-- The cache after it was asked for the ring of this material. -/
def asked (c : KeyCache) (material : Bytes) : KeyCache :=
  match c.ring material with
  | .ok (_, c') => c'
  | .error _ => c

theorem asked_of_ring (hring : c.ring material = .ok (r, c')) : c.asked material = c' := by
  unfold asked
  rw [hring]

theorem asked_of_error {why : KeyBundle.Unusable} (hring : c.ring material = .error why) :
    c.asked material = c := by
  unfold asked
  rw [hring]

theorem lookup_asked (hfound : c.rings.lookup material = some r) (other : Bytes) :
    (c.asked other).rings.lookup material = some r := by
  cases hring : c.ring other with
  | error why =>
      rw [asked_of_error hring]
      exact hfound
  | ok found =>
      rw [asked_of_ring hring]
      rcases ring_cases hring with ⟨-, hsame⟩ | ⟨hnone, -, hrings, -⟩
      · rw [hsame]
        exact hfound
      · have hother : material ≠ other := by
          rintro rfl
          rw [hfound] at hnone
          cases hnone
        rw [hrings, List.lookup_cons, beq_false_of_ne hother]
        exact hfound

/-! ### The numbers of rings -/

/-- The remembered rings have numbers from `since` on, and below that of the next ring. -/
structure Issued (c : KeyCache) (since : Nat) : Prop where
  rings : ∀ e ∈ c.rings, since ≤ e.2.serial ∧ e.2.serial < c.made
  made : since ≤ c.made

theorem issued_empty : empty.Issued 0 := by
  constructor
  · intro e he
    cases he
  · exact Nat.le_refl 0

theorem Issued.mono {before : Nat} (hc : c.Issued since) (hle : before ≤ since) :
    c.Issued before := by
  constructor
  · intro e he
    obtain ⟨hsince, hmade⟩ := hc.rings e he
    exact ⟨Nat.le_trans hle hsince, hmade⟩
  · exact Nat.le_trans hle hc.made

theorem Issued.of_ring (hc : c.Issued since) (hring : c.ring material = .ok (r, c')) :
    c'.Issued since ∧ since ≤ r.serial ∧ r.serial < c'.made ∧ c.made ≤ c'.made := by
  rcases ring_cases hring with ⟨hfound, rfl⟩ | ⟨-, hserial, hrings, hmade⟩
  · have hmem : (material, r) ∈ c'.rings := by
      obtain ⟨before, after, hrings, -⟩ := List.lookup_eq_some_iff.mp hfound
      simp [hrings]
    obtain ⟨hsince, hlt⟩ := hc.rings _ hmem
    exact ⟨hc, hsince, hlt, Nat.le_refl _⟩
  · have hsince := hc.made
    refine ⟨⟨?_, by omega⟩, by omega, by omega, by omega⟩
    intro e he
    rw [hrings] at he
    rcases List.mem_cons.mp he with rfl | he
    · show since ≤ r.serial ∧ r.serial < c'.made
      omega
    · obtain ⟨hlow, hhigh⟩ := hc.rings e he
      omega

theorem Issued.asked (hc : c.Issued since) (material : Bytes) :
    (c.asked material).Issued since ∧ c.made ≤ (c.asked material).made := by
  cases hring : c.ring material with
  | error why =>
      rw [asked_of_error hring]
      exact ⟨hc, Nat.le_refl _⟩
  | ok found =>
      rw [asked_of_ring hring]
      obtain ⟨hissued, -, -, hmade⟩ := hc.of_ring hring
      exact ⟨hissued, hmade⟩

theorem issued_close (c : KeyCache) : c.close.Issued c.made := by
  constructor
  · intro e he
    cases he
  · exact Nat.le_refl _

end KeyCache

/-! ## Calls -/

/-- A call of a verifier; how much room there is can differ from call to call. -/
inductive Verifier.Call where
  | verify (room : Room) (raw material : Bytes)
  | keys (material : Bytes)
  | close

namespace Verifier.Call

/-- The host after a call of the verifier with this number. -/
def after (v : Nat) (h : Host σ) : Call → Host σ
  | .verify room raw material => ((ed25519 room v).verify raw material h).2
  | .keys material => (ring v material h).2
  | .close => (drop v h).2

/-- What a call does to what the verifier remembers. -/
def effect (c : KeyCache) : Call → KeyCache
  | .verify _ _ material => c.asked material
  | .keys material => c.asked material
  | .close => c.close

theorem lookup_effect {c : KeyCache} {material : Bytes} {r : KeyRing} {call : Call}
    (hopen : call ≠ .close) (hfound : c.rings.lookup material = some r) :
    (call.effect c).rings.lookup material = some r := by
  cases call with
  | verify room raw other => exact KeyCache.lookup_asked hfound other
  | keys other => exact KeyCache.lookup_asked hfound other
  | close => exact absurd rfl hopen

theorem issued_effect {c : KeyCache} {since : Nat} (hc : c.Issued since) (call : Call) :
    (call.effect c).Issued since ∧ c.made ≤ (call.effect c).made := by
  cases call with
  | verify room raw material => exact hc.asked material
  | keys material => exact hc.asked material
  | close => exact ⟨c.issued_close.mono hc.made, Nat.le_refl _⟩

end Verifier.Call

namespace Verifier

variable {v : Nat} {h : Host σ}

/-- The host after these calls. -/
def after (v : Nat) (h : Host σ) (calls : List Call) : Host σ := calls.foldl (Call.after v) h

theorem ring_eq_ok_iff {material : Bytes} {r : KeyRing} :
    (ring v material h).1 = .ok r ↔ ∃ c', (h.caches v).ring material = .ok (r, c') := by
  rw [ring_apply]
  cases (h.caches v).ring material with
  | error why => simp
  | ok found =>
      obtain ⟨ring, cache⟩ := found
      simp

theorem ring_caches (v : Nat) (material : Bytes) (h : Host σ) :
    (ring v material h).2.caches v = (h.caches v).asked material := by
  rw [ring_apply]
  cases hring : (h.caches v).ring material with
  | error why => exact (KeyCache.asked_of_error hring).symm
  | ok found =>
      rw [KeyCache.asked_of_ring hring]
      exact Act.replace_self _ _ _

theorem verify_caches (room : Room) (v : Nat) (raw material : Bytes) (h : Host σ) :
    ((ed25519 room v).verify raw material h).2.caches v = (h.caches v).asked material := by
  rw [← ring_caches, verify_eq, Act.bind_apply]
  cases ring v material h with
  | mk result h' => cases result <;> rfl

theorem caches_after (call : Call) : (call.after v h).caches v = call.effect (h.caches v) := by
  cases call with
  | verify room raw material => exact verify_caches room v raw material h
  | keys material => exact ring_caches v material h
  | close => exact Act.replace_self _ _ _

/-- Until the verifier is closed it has its rings at hand. -/
theorem lookup_after {calls : List Call} (hopen : .close ∉ calls) {material : Bytes} {r : KeyRing}
    (hfound : (h.caches v).rings.lookup material = some r) :
    ((after v h calls).caches v).rings.lookup material = some r := by
  induction calls generalizing h with
  | nil => exact hfound
  | cons call calls ih =>
      have hcall : call ≠ .close := fun hclose => hopen (hclose ▸ List.mem_cons_self)
      refine ih (fun hmem => hopen (List.mem_cons_of_mem _ hmem)) ?_
      rw [caches_after]
      exact Call.lookup_effect hcall hfound

theorem issued_after {since : Nat} (hc : (h.caches v).Issued since) (calls : List Call) :
    ((after v h calls).caches v).Issued since := by
  induction calls generalizing h with
  | nil => exact hc
  | cons call calls ih =>
      refine ih ?_
      rw [caches_after]
      exact (Call.issued_effect hc call).1

/-- After it was closed it has only rings with numbers that it had not given before. -/
theorem issued_after_close {since : Nat} (hc : (h.caches v).Issued since) {calls : List Call}
    (hclose : .close ∈ calls) : ((after v h calls).caches v).Issued (h.caches v).made := by
  induction calls generalizing h since with
  | nil => cases hclose
  | cons call calls ih =>
      obtain ⟨hcall, hmade⟩ := Call.issued_effect hc call
      rw [← caches_after] at hcall hmade
      rcases List.mem_cons.mp hclose with rfl | hlater
      · have hclosed : ((Call.close.after v h).caches v).Issued (h.caches v).made := by
          rw [caches_after]
          exact (h.caches v).issued_close
        exact issued_after hclosed calls
      · exact (ih hcall hlater).mono hmade

/-- The ring for the same material is the same until the verifier is closed, and afterwards
all rings have greater numbers. -/
theorem ring_after {since : Nat} (hc : (h.caches v).Issued since) {material : Bytes} {r : KeyRing}
    (hring : (ring v material h).1 = .ok r) (calls : List Call) :
    (.close ∉ calls → (ring v material (after v h (.keys material :: calls))).1 = .ok r) ∧
      (.close ∈ calls → ∀ other r', (ring v other (after v h (.keys material :: calls))).1 = .ok r' →
        r.serial < r'.serial) := by
  obtain ⟨cache, hcache⟩ := ring_eq_ok_iff.mp hring
  have hkept : (((Call.keys material).after v h).caches v) = cache := by
    rw [caches_after]
    exact KeyCache.asked_of_ring hcache
  obtain ⟨hissued, -, hlt, -⟩ := hc.of_ring hcache
  constructor
  · intro hopen
    have hfound : (((Call.keys material).after v h).caches v).rings.lookup material = some r := by
      rw [hkept]
      exact KeyCache.lookup_of_ring hcache
    exact ring_eq_ok_iff.mpr ⟨_, KeyCache.ring_of_lookup (lookup_after hopen hfound)⟩
  · intro hclose other r' hother
    obtain ⟨cache', hcache'⟩ := ring_eq_ok_iff.mp hother
    rw [← hkept] at hissued hlt
    have hlater := (issued_after_close hissued hclose).of_ring hcache'
    exact Nat.lt_of_lt_of_le hlt hlater.2.1

/-- The keys of a ring are what the material reads as, whatever is remembered. -/
theorem ring_keys (v : Nat) (material : Bytes) (h : Host σ) :
    (ring v material h).1.map KeyRing.keys =
      (KeyBundle.load material).mapError Fault.unusableKeys := by
  rw [ring_apply, ← (h.caches v).ring_keys material]
  cases (h.caches v).ring material with
  | error why => rfl
  | ok found => rfl

/-- Whatever the verifier is called for from this host on, what it remembers does not show,
except that a ring which is asked for again is the same one until the verifier is closed. -/
structure Transparent (v : Nat) (h₀ : Host σ) : Prop where
  verify : ∀ room calls raw material w (fresh : Host σ), fresh.caches w = .empty →
    ((ed25519 room v).verify raw material (after v h₀ calls)).1 =
      ((ed25519 room w).verify raw material fresh).1
  keys : ∀ calls material w (fresh : Host σ), fresh.caches w = .empty →
    (ring v material (after v h₀ calls)).1.map KeyRing.keys =
      (ring w material fresh).1.map KeyRing.keys
  unclosed : ∀ calls material r, (ring v material (after v h₀ calls)).1 = .ok r →
    ∀ more, .close ∉ more →
      (ring v material (after v h₀ (calls ++ .keys material :: more))).1 = .ok r
  closed : ∀ calls material r, (ring v material (after v h₀ calls)).1 = .ok r →
    ∀ more, .close ∈ more → ∀ r',
      (ring v material (after v h₀ (calls ++ .keys material :: more))).1 = .ok r' →
        r'.serial ≠ r.serial
  unreadable : ∀ calls material f, (ring v material (after v h₀ calls)).1 = .error f →
    (ring v material (after v h₀ calls)).2 = after v h₀ calls

theorem after_append (calls more : List Call) :
    after v h (calls ++ more) = after v (after v h calls) more := List.foldl_append

theorem transparent_of_new (hnew : h.caches v = .empty) : Transparent v h := by
  have hissued : ∀ calls, ((after v h calls).caches v).Issued 0 := by
    intro calls
    refine issued_after ?_ calls
    rw [hnew]
    exact KeyCache.issued_empty
  constructor
  · intro room calls raw material w fresh _
    obtain ⟨k, hverify⟩ := verify_apply room v raw material (after v h calls)
    obtain ⟨k', hverify'⟩ := verify_apply room w raw material fresh
    rw [hverify, hverify']
  · intro calls material w fresh _
    rw [ring_keys, ring_keys]
  · intro calls material r hring more hopen
    rw [after_append]
    exact (ring_after (hissued calls) hring more).1 hopen
  · intro calls material r hring more hclose r' hring'
    rw [after_append] at hring'
    exact Nat.ne_of_gt ((ring_after (hissued calls) hring more).2 hclose material r' hring')
  · intro calls material f hfail
    rw [ring_apply] at hfail ⊢
    cases hring : ((after v h calls).caches v).ring material with
    | error why => rfl
    | ok found =>
        rw [hring] at hfail
        cases hfail

end Verifier

end ImageTrust
