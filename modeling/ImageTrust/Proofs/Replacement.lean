/-
# Replacement — putting signatures in the place of the stored ones

The stored signatures are removed number by number, up to the first number that is missing
(`Directory.Cleared`), and then the new ones are written over whatever is there
(`Directory.Written`).  Each of these steps changes one number and leaves the others alone.

So the new signatures are all there afterwards, in order.  Whether something from before follows
them is decided by the first gap: what was stored behind a gap is not removed, and it is read
again as soon as the new signatures close the gap (`Directory.signatures_putSignatures`).
-/
import ImageTrust.Proofs.Listing

namespace ImageTrust

namespace Directory

variable {σ : Type} {disk disk' disk'' : Disk} {root : Path} {index first last count fuel : Nat}
  {raw : Bytes} {raws listed stale : List Bytes} {h : Host σ}

/-! ## One number -/

theorem signatureName_ne {i j : Nat} (hne : i ≠ j) : signatureName i ≠ signatureName j := by
  intro hsame
  have hindex := signatureName_injective hsame
  omega

theorem unlink_signature (h : disk.unlink (signaturePath root index) = .ok disk') :
    disk'.exists? (signaturePath root index) = .ok false ∧
      ∀ i : Nat, i ≠ index → Disk.SameAt disk disk' (signaturePath root i) := by
  obtain ⟨hgone, hkept⟩ := Disk.unlink_child (signatureName_ne_up index) h
  exact ⟨hgone, fun i hi => hkept _ (signatureName_ne_up i) (signatureName_ne hi)⟩

theorem write_signature (h : disk.write (signaturePath root index) raw = .ok disk') :
    disk'.read (signaturePath root index) = .ok raw ∧
      ∀ i : Nat, i ≠ index → Disk.SameAt disk disk' (signaturePath root i) := by
  obtain ⟨hread, hkept⟩ := Disk.write_child (signatureName_ne_up index) h
  exact ⟨hread, fun i hi => hkept _ (signatureName_ne_up i) (signatureName_ne hi)⟩

/-! ## Removing -/

/-- Between the two disks the numbers from the first up to the last were removed, and nothing
else. -/
structure Cleared (disk disk' : Disk) (root : Path) (first last : Nat) : Prop where
  stored : ∀ i : Nat, first ≤ i → i < last → disk.exists? (signaturePath root i) = .ok true
  removed : ∀ i : Nat, first ≤ i → i < last → disk'.exists? (signaturePath root i) = .ok false
  kept : ∀ i : Nat, i < first ∨ last ≤ i → Disk.SameAt disk disk' (signaturePath root i)

namespace Cleared

theorem none (disk : Disk) (root : Path) (first : Nat) : Cleared disk disk root first first where
  stored _ hfirst hlast := absurd hlast (Nat.not_lt.mpr hfirst)
  removed _ hfirst hlast := absurd hlast (Nat.not_lt.mpr hfirst)
  kept _ _ := .refl disk _

/-- One number is removed and then the ones behind it. -/
theorem cons (hexists : disk.exists? (signaturePath root first) = .ok true)
    (hunlink : disk.unlink (signaturePath root first) = .ok disk') (hle : first < last)
    (rest : Cleared disk' disk'' root (first + 1) last) : Cleared disk disk'' root first last := by
  obtain ⟨hgone, hother⟩ := unlink_signature hunlink
  refine ⟨fun i hfirst hlast => ?_, fun i hfirst hlast => ?_, fun i hi => ?_⟩
  · rcases Nat.eq_or_lt_of_le hfirst with rfl | hlater
    · exact hexists
    · rw [← (hother i (by omega)).exists_eq]
      exact rest.stored i hlater hlast
  · rcases Nat.eq_or_lt_of_le hfirst with rfl | hlater
    · rw [(rest.kept first (.inl (Nat.lt_succ_self first))).exists_eq]
      exact hgone
    · exact rest.removed i hlater hlast
  · exact (hother i (by omega)).trans (rest.kept i (by omega))

end Cleared

/-- Removing ends at a number that is missing, and else removes it and goes on. -/
theorem clearFrom_succ_eq_ok (hclear : (clearFrom root index (fuel + 1) h).1 = .ok ()) :
    (h.disk.exists? (signaturePath root index) = .ok false ∧
        clearFrom root index (fuel + 1) h = (.ok (), h)) ∨
      ∃ d, h.disk.exists? (signaturePath root index) = .ok true ∧
        h.disk.unlink (signaturePath root index) = .ok d ∧
        clearFrom root index (fuel + 1) h = clearFrom root (index + 1) fuel { h with disk := d } := by
  have hexists : (Act.exists? (signaturePath root index) : Act σ Bool) h =
    ((h.disk.exists? (signaturePath root index)).mapError .disk, h) := rfl
  rw [clearFrom] at hclear ⊢
  cases hthere : h.disk.exists? (signaturePath root index) with
  | error why =>
      rw [hthere] at hexists
      rw [Act.bind_error hexists] at hclear
      cases hclear
  | ok there =>
      rw [hthere] at hexists
      rw [Act.bind_ok hexists] at hclear ⊢
      cases there with
      | false => exact .inl ⟨rfl, rfl⟩
      | true =>
          rw [if_pos rfl] at hclear ⊢
          obtain ⟨d, hunlink, hstep⟩ := Act.changeDisk_bind_eq_ok hclear
          exact .inr ⟨d, rfl, hunlink, hstep⟩

/-- Removing takes the numbers up to one that is missing, or up to its last step. -/
theorem cleared_of_clearFrom (hclear : (clearFrom root index fuel h).1 = .ok ()) :
    ∃ last, index ≤ last ∧ Cleared h.disk (clearFrom root index fuel h).2.disk root index last ∧
      (last = index + fuel ∨ h.disk.exists? (signaturePath root last) = .ok false) := by
  induction fuel generalizing index h with
  | zero => exact ⟨index, Nat.le_refl index, .none _ _ _, .inl rfl⟩
  | succ fuel ih =>
      rcases clearFrom_succ_eq_ok hclear with ⟨hmissing, hend⟩ | ⟨d, hexists, hunlink, hstep⟩
      · rw [hend]
        exact ⟨index, Nat.le_refl index, .none _ _ _, .inr hmissing⟩
      · rw [hstep] at hclear ⊢
        obtain ⟨last, hle, hcleared, hlast⟩ := ih hclear
        refine ⟨last, by omega, .cons hexists hunlink hle hcleared, ?_⟩
        rcases hlast with hlast | hmissing
        · exact .inl (by omega)
        · have hsame := (unlink_signature hunlink).2 last (by omega)
          exact .inr (hsame.exists_eq ▸ hmissing)

/-- With one step more than there are entries, removing goes on to a number that is missing. -/
theorem cleared_of_enough (hclear : (clearFrom root 0 (h.disk.entries.length + 1) h).1 = .ok ()) :
    ∃ last : Nat, h.disk.exists? (signaturePath root last) = .ok false ∧
      Cleared h.disk (clearFrom root 0 (h.disk.entries.length + 1) h).2.disk root 0 last := by
  obtain ⟨last, -, hcleared, hlast⟩ := cleared_of_clearFrom hclear
  have hbound : last ≤ h.disk.entries.length :=
    length_le_of_numbered fun i hi => hcleared.stored i (Nat.zero_le i) hi
  rcases hlast with hlast | hmissing
  · omega
  · exact ⟨last, hmissing, hcleared⟩

/-! ## Writing -/

/-- From this number on these signatures are read, one after the other. -/
inductive Stores (disk : Disk) (root : Path) : Nat → List Bytes → Prop
  | nil {index : Nat} : Stores disk root index []
  | cons {index : Nat} {raw : Bytes} {raws : List Bytes}
      (found : disk.read (signaturePath root index) = .ok raw)
      (rest : Stores disk root (index + 1) raws) : Stores disk root index (raw :: raws)

/-- Between the two disks these signatures were written from the first number on, and nothing
else. -/
structure Written (disk disk' : Disk) (root : Path) (first : Nat) (raws : List Bytes) : Prop where
  stored : Stores disk' root first raws
  kept : ∀ i : Nat, i < first ∨ first + raws.length ≤ i →
    Disk.SameAt disk disk' (signaturePath root i)

theorem writeFrom_cons_eq_ok (hwrite : (writeFrom root index (raw :: raws) h).1 = .ok ()) :
    ∃ d, h.disk.write (signaturePath root index) raw = .ok d ∧
      writeFrom root index (raw :: raws) h = writeFrom root (index + 1) raws { h with disk := d } := by
  rw [writeFrom] at hwrite ⊢
  exact Act.changeDisk_bind_eq_ok hwrite

theorem written_of_writeFrom (hwrite : (writeFrom root index raws h).1 = .ok ()) :
    Written h.disk (writeFrom root index raws h).2.disk root index raws := by
  induction raws generalizing index h with
  | nil => exact ⟨.nil, fun i _ => .refl h.disk _⟩
  | cons raw raws ih =>
      obtain ⟨d, hput, hstep⟩ := writeFrom_cons_eq_ok hwrite
      rw [hstep] at hwrite ⊢
      have hrest := ih hwrite
      obtain ⟨hread, hother⟩ := write_signature hput
      refine ⟨.cons ?_ hrest.stored, fun i hi => ?_⟩
      · rw [(hrest.kept index (.inl (Nat.lt_succ_self index))).read_eq]
        exact hread
      · rw [List.length_cons] at hi
        exact (hother i (by omega)).trans (hrest.kept i (by omega))

/-! ## Reading afterwards -/

/-- A listing of stored signatures begins with them and goes on behind them. -/
theorem Stores.lists_iff (hs : Stores disk root index raws) :
    Lists disk root index listed ↔
      ∃ stale, listed = raws ++ stale ∧ Lists disk root (index + raws.length) stale := by
  induction hs generalizing listed with
  | nil => simp
  | @cons index raw raws found rest ih =>
      rw [List.length_cons, Nat.add_comm raws.length, ← Nat.add_assoc]
      constructor
      · intro hl
        cases hl with
        | done missing =>
            rw [Disk.exists_of_read found] at missing
            cases missing
        | more found' hmore =>
            obtain ⟨stale, rfl, hstale⟩ := ih.mp hmore
            obtain rfl := Except.ok.inj (found.symm.trans found')
            exact ⟨stale, rfl, hstale⟩
      · rintro ⟨stale, rfl, hstale⟩
        exact .more found (ih.mpr ⟨stale, rfl, hstale⟩)

theorem Lists.congr (hl : Lists disk root index listed)
    (hsame : ∀ i : Nat, index ≤ i → Disk.SameAt disk disk' (signaturePath root i)) :
    Lists disk' root index listed := by
  induction hl with
  | @done index missing =>
      exact .done ((hsame index (Nat.le_refl index)).exists_eq.trans missing)
  | @more index raw raws found rest ih =>
      exact .more ((hsame index (Nat.le_refl index)).read_eq.trans found)
        (ih fun i hi => hsame i (Nat.le_of_succ_le hi))

theorem lists_congr (hsame : ∀ i : Nat, index ≤ i → Disk.SameAt disk disk' (signaturePath root i)) :
    Lists disk' root index listed ↔ Lists disk root index listed :=
  ⟨fun hl => hl.congr fun i hi => (hsame i hi).symm, fun hl => hl.congr hsame⟩

/-- What is read behind this many new signatures. Where all the numbers before were stored,
the removal has come as far, and nothing is left; where one of them was missing, the removal
ended there, and everything behind is left. -/
def Remains (disk : Disk) (root : Path) (count : Nat) (stale : List Bytes) : Prop :=
  (∀ i < count, disk.exists? (signaturePath root i) = .ok true) ∧ stale = [] ∨
    (∃ i < count, disk.exists? (signaturePath root i) = .ok false) ∧ Lists disk root count stale

theorem remains_of_stored (hstored : ∀ i < count, disk.exists? (signaturePath root i) = .ok true) :
    Remains disk root count stale ↔ stale = [] := by
  constructor
  · rintro (⟨-, hnone⟩ | ⟨⟨i, hi, hgap⟩, -⟩)
    · exact hnone
    · rw [hstored i hi] at hgap
      cases hgap
  · exact fun hnone => .inl ⟨hstored, hnone⟩

theorem remains_of_gap {i : Nat} (hi : i < count)
    (hgap : disk.exists? (signaturePath root i) = .ok false) :
    Remains disk root count stale ↔ Lists disk root count stale := by
  constructor
  · rintro (⟨hstored, -⟩ | ⟨-, hlists⟩)
    · rw [hstored i hi] at hgap
      cases hgap
    · exact hlists
  · exact fun hlists => .inr ⟨⟨i, hi, hgap⟩, hlists⟩

/-- After removing up to the first gap, what remains is listed. -/
theorem Cleared.lists_iff (hc : Cleared disk disk' root 0 last)
    (hgap : disk.exists? (signaturePath root last) = .ok false) :
    Lists disk' root count stale ↔ Remains disk root count stale := by
  rcases Nat.lt_or_ge last count with hbehind | hle
  · rw [remains_of_gap hbehind hgap]
    exact lists_congr fun i hi => hc.kept i (by omega)
  · rw [remains_of_stored fun i hi => hc.stored i (Nat.zero_le i) (by omega)]
    refine Lists.of_missing ?_
    rcases Nat.eq_or_lt_of_le hle with rfl | hbefore
    · exact (hc.kept count (by omega)).exists_eq.trans hgap
    · exact hc.removed count (Nat.zero_le count) hbefore

/-- The stored signatures are removed up to the first gap, and then the new ones are written. -/
theorem replaced_of_putSignatures (hput : (putSignatures root raws h).1 = .ok ()) :
    ∃ (last : Nat) (between : Disk), h.disk.exists? (signaturePath root last) = .ok false ∧
      Cleared h.disk between root 0 last ∧
      Written between (putSignatures root raws h).2.disk root 0 raws := by
  have henough : (enough : Act σ Nat) h = (.ok (h.disk.entries.length + 1), h) := rfl
  unfold putSignatures at hput ⊢
  rw [Act.bind_ok henough] at hput ⊢
  cases hclear : clearFrom root 0 (h.disk.entries.length + 1) h with
  | mk outcome after =>
      cases outcome with
      | error f =>
          rw [Act.bind_error hclear] at hput
          cases hput
      | ok u =>
          rw [Act.bind_ok hclear] at hput ⊢
          obtain ⟨last, hgap, hcleared⟩ := cleared_of_enough (congrArg Prod.fst hclear)
          rw [hclear] at hcleared
          exact ⟨last, after.disk, hgap, hcleared, written_of_writeFrom hput⟩

/-- What reading comes to after putting signatures: all of them, and behind them what remains of
the stored ones.  So it comes to just these signatures when every number up to the last of them
was stored already, and when the next number was not. -/
theorem signatures_putSignatures (hput : (putSignatures root raws h).1 = .ok ()) :
    (∀ listed, (signatures root (putSignatures root raws h).2).1 = .ok listed ↔
        ∃ stale, listed = raws ++ stale ∧ Remains h.disk root raws.length stale) ∧
      ((signatures root (putSignatures root raws h).2).1 = .ok raws ↔
        (∀ i < raws.length, h.disk.exists? (signaturePath root i) = .ok true) ∨
          h.disk.exists? (signaturePath root raws.length) = .ok false) := by
  obtain ⟨last, between, hgap, hcleared, hwritten⟩ := replaced_of_putSignatures hput
  have hread : ∀ listed, (signatures root (putSignatures root raws h).2).1 = .ok listed ↔
      ∃ stale, listed = raws ++ stale ∧ Remains h.disk root raws.length stale := by
    intro listed
    have hbehind : ∀ i : Nat, raws.length ≤ i → Disk.SameAt between
        (putSignatures root raws h).2.disk (signaturePath root i) :=
      fun i hi => hwritten.kept i (.inr (by omega))
    simp only [signatures_eq_ok_iff, hwritten.stored.lists_iff, Nat.zero_add,
      lists_congr hbehind, hcleared.lists_iff hgap]
  have hnothing : (∃ stale, raws = raws ++ stale ∧ Remains h.disk root raws.length stale) ↔
      Remains h.disk root raws.length [] := by
    simp
  refine ⟨hread, ?_⟩
  rw [hread, hnothing]
  -- Either the first gap is before the last of the signatures, or the removal went past them.
  rcases Nat.lt_or_ge last raws.length with hbefore | hle
  · rw [remains_of_gap hbefore hgap, Lists.nil_iff]
    refine ⟨.inr, fun hcases => hcases.resolve_left fun hstored => ?_⟩
    rw [hstored last hbefore] at hgap
    cases hgap
  · have hstored : ∀ i < raws.length, h.disk.exists? (signaturePath root i) = .ok true :=
      fun i hi => hcleared.stored i (Nat.zero_le i) (by omega)
    rw [remains_of_stored hstored]
    exact iff_of_true rfl (.inl hstored)

/-- Where the first, the second and the fourth number are stored, one signature takes their place,
and three of them bring the fourth back. -/
theorem signatures_putSignatures_gap :
    ∃ (h : Host Unit) (root : Path),
      (putSignatures root [[1]] h).1 = .ok () ∧
      (signatures root (putSignatures root [[1]] h).2).1 = .ok [[1]] ∧
      (putSignatures root [[1], [2], [3]] h).1 = .ok () ∧
      (signatures root (putSignatures root [[1], [2], [3]] h).2).1 = .ok [[1], [2], [3], [14]] := by
  let stored : Disk := ⟨[(["signature-1"], .file [11]), (["signature-2"], .file [12]),
    (["signature-4"], .file [14])], []⟩
  let h : Host Unit := Host.fresh stored ()
  have hone : (putSignatures (Path.ofText ".") [[1]] h).1 = .ok () := rfl
  have hthree : (putSignatures (Path.ofText ".") [[1], [2], [3]] h).1 = .ok () := rfl
  have hfirst : stored.exists? (signaturePath (Path.ofText ".") (0 : Nat)) = .ok true := rfl
  have hgap : stored.exists? (signaturePath (Path.ofText ".") (2 : Nat)) = .ok false := rfl
  have hfourth : stored.read (signaturePath (Path.ofText ".") (3 : Nat)) = .ok [14] := rfl
  have hend : stored.exists? (signaturePath (Path.ofText ".") (4 : Nat)) = .ok false := rfl
  refine ⟨h, Path.ofText ".", hone, ?_, hthree, ?_⟩
  · refine (signatures_putSignatures hone).2.mpr (.inl fun i hi => ?_)
    obtain rfl : i = 0 := Nat.lt_one_iff.mp hi
    exact hfirst
  · refine ((signatures_putSignatures hthree).1 _).mpr ⟨[[14]], rfl, .inr ⟨⟨2, by decide, hgap⟩, ?_⟩⟩
    exact .more hfourth (.done hend)

/-- What was stored behind a gap is read again behind the signatures that took its place. -/
theorem putSignatures_brings_back :
    ∃ (h : Host Unit) (root : Path), (∀ e ∈ h.disk.entries, ∃ content, e.2 = .file content) ∧
      (putSignatures root [[1]] h).1 = .ok () ∧
      (signatures root (putSignatures root [[1]] h).2).1 = .ok [[1], [12]] ∧
      (signatures root (putSignatures root [[1]] h).2).1 ≠ .ok [[1]] := by
  refine ⟨Host.fresh ⟨[(["signature-2"], .file [12])], []⟩ (), Path.ofText ".", ?_, rfl, rfl,
    by decide⟩
  intro e he
  obtain rfl := List.mem_singleton.mp he
  exact ⟨_, rfl⟩

end Directory

end ImageTrust
