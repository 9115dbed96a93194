/-
# Listing — the signatures in a directory

Reading goes on to the first number that is missing (`Directory.Lists`), and the reader is given
one step more than there are entries on the disk.  That is always enough: a path that exists and
does not end in two dots leads to an entry with its last name, the names of distinct signatures
are distinct, and so there are at most as many signatures as entries (`length_le_of_numbered`).
So what reading comes to is what is listed, and nothing else (`signatures_eq_ok_iff`).

A directory that holds a manifest and these signatures, and no further one, is read
completely and in order, on every ground with these files.
-/
import Mathlib.Data.List.Nodup
import Mathlib.Data.List.Perm.Subperm
import ImageTrust.Directory
import ImageTrust.Proofs.Digits
import ImageTrust.Proofs.Files
import ImageTrust.Proofs.Stored

namespace ImageTrust

variable {σ : Type}

/-! ## Numbered signatures -/

namespace Directory

/-- The name at the end of a signature's path, counted from zero. -/
def signatureName (index : Int) : Text := Text.sentence ["signature-", Text.integer (index + 1)]

theorem signatureName_injective {i j : Int} (h : signatureName i = signatureName j) : i = j := by
  unfold signatureName Text.sentence at h
  simp only [List.flatten_cons, List.flatten_nil, List.append_nil] at h
  have hnumber := Text.integer_injective (List.append_cancel_left h)
  omega

theorem signatureName_ne_up (index : Int) : signatureName index ≠ ".." := by
  intro h
  have hlength := congrArg List.length h
  unfold signatureName Text.sentence at hlength
  simp only [List.flatten_cons, List.length_append] at hlength
  have hstem : (Text.ofString "signature-").length = 10 := rfl
  have hup : (Text.ofString "..").length = 2 := rfl
  omega

/-- There are at most as many signatures as there are entries. -/
theorem length_le_of_numbered {root : Path} {disk : Disk} {n : Nat}
    (h : ∀ i < n, disk.exists? (signaturePath root i) = .ok true) : n ≤ disk.entries.length := by
  let wanted := (List.range n).map fun i : Nat => some (signatureName i)
  -- Entries are compared by their last names alone, wherever the directory is.
  let present := disk.entries.map fun e => e.1.getLast?
  have hdistinct : wanted.Nodup := by
    refine List.Nodup.map (fun i j hij => ?_) List.nodup_range
    have hsame := signatureName_injective (Option.some.inj hij)
    omega
  have hpresent : wanted ⊆ present := by
    intro name hname
    obtain ⟨i, hi, rfl⟩ := List.mem_map.mp hname
    exact Disk.mem_entries_of_exists (signatureName_ne_up i) (h i (List.mem_range.mp hi))
  have hle := (List.subperm_of_subset hdistinct hpresent).length_le
  simpa [wanted, present] using hle

/-! ## Reading on -/

/-- From this number on the directory lists these signatures: each of them is read, and behind
the last one the next number is missing. -/
inductive Lists (disk : Disk) (root : Path) : Nat → List Bytes → Prop
  | done {index : Nat} (missing : disk.exists? (signaturePath root index) = .ok false) :
      Lists disk root index []
  | more {index : Nat} {raw : Bytes} {raws : List Bytes}
      (found : disk.read (signaturePath root index) = .ok raw)
      (rest : Lists disk root (index + 1) raws) : Lists disk root index (raw :: raws)

namespace Lists

variable {disk : Disk} {root : Path} {index : Nat} {raw : Bytes} {raws : List Bytes}

theorem nil_iff : Lists disk root index [] ↔ disk.exists? (signaturePath root index) = .ok false := by
  constructor
  · rintro ⟨missing⟩
    exact missing
  · exact .done

theorem of_missing (missing : disk.exists? (signaturePath root index) = .ok false) :
    Lists disk root index raws ↔ raws = [] := by
  constructor
  · rintro (_ | ⟨found, -⟩)
    · rfl
    · rw [Disk.exists_of_read found] at missing
      cases missing
  · rintro rfl
    exact .done missing

theorem cons_iff : Lists disk root index (raw :: raws) ↔
    disk.read (signaturePath root index) = .ok raw ∧ Lists disk root (index + 1) raws := by
  constructor
  · intro h
    cases h with
    | more found rest => exact ⟨found, rest⟩
  · rintro ⟨found, rest⟩
    exact .more found rest

/-- What is listed is what is read under one number after the other, up to a missing one. -/
theorem iff_reads : Lists disk root index raws ↔
    (∀ (i : Nat) (raw : Bytes), raws[i]? = some raw →
      disk.read (signaturePath root (index + i : Nat)) = .ok raw) ∧
      disk.exists? (signaturePath root (index + raws.length : Nat)) = .ok false := by
  induction raws generalizing index with
  | nil => simp [nil_iff]
  | cons first rest ih =>
      have hnext : ∀ i, index + 1 + i = index + (i + 1) := fun i => by omega
      simp only [cons_iff, ih, hnext, List.length_cons]
      constructor
      · rintro ⟨hfirst, hrest, hmissing⟩
        refine ⟨fun i raw hraw => ?_, hmissing⟩
        cases i with
        | zero =>
            cases hraw
            exact hfirst
        | succ i => exact hrest i raw hraw
      · rintro ⟨hall, hmissing⟩
        exact ⟨hall 0 first rfl, fun i raw hraw => hall (i + 1) raw hraw, hmissing⟩

end Lists

/-- What reading from this number on comes to on this disk. -/
def listedFrom (disk : Disk) (root : Path) (index : Nat) : Nat → Except Fault (List Bytes)
  | 0 => .ok []
  | fuel + 1 =>
    match disk.exists? (signaturePath root index) with
    | .error why => .error (.disk why)
    | .ok false => .ok []
    | .ok true =>
      match disk.read (signaturePath root index) with
      | .error why => .error (.disk why)
      | .ok raw => (listedFrom disk root (index + 1) fuel).map (raw :: ·)

section Reading

variable {disk : Disk} {root : Path} {index fuel : Nat} {raws : List Bytes}

theorem signaturesFrom_apply (root : Path) (index fuel : Nat) (h : Host σ) :
    signaturesFrom root index fuel h = (listedFrom h.disk root index fuel, h) := by
  induction fuel generalizing index with
  | zero => rfl
  | succ fuel ih =>
      have hexists : (Act.exists? (signaturePath root index) : Act σ Bool) h =
        ((h.disk.exists? (signaturePath root index)).mapError .disk, h) := rfl
      have hread : (Act.readFile (signaturePath root index) : Act σ Bytes) h =
        ((h.disk.read (signaturePath root index)).mapError .disk, h) := rfl
      rw [signaturesFrom, listedFrom]
      cases hthere : h.disk.exists? (signaturePath root index) with
      | error why =>
          rw [hthere] at hexists
          exact Act.bind_error hexists _
      | ok there =>
          rw [hthere] at hexists
          rw [Act.bind_ok hexists]
          cases there with
          | false => rfl
          | true =>
              rw [if_pos rfl]
              cases hraw : h.disk.read (signaturePath root index) with
              | error why =>
                  rw [hraw] at hread
                  exact Act.bind_error hread _
              | ok raw =>
                  rw [hraw] at hread
                  rw [Act.bind_ok hread, Act.bind_apply, ih]
                  dsimp only
                  cases listedFrom h.disk root (index + 1) fuel <;> rfl

/-- A step of reading ends where the number is missing, and else takes what is there. -/
theorem listedFrom_succ_eq_ok_iff :
    listedFrom disk root index (fuel + 1) = .ok raws ↔
      (disk.exists? (signaturePath root index) = .ok false ∧ raws = []) ∨
        ∃ raw more, disk.read (signaturePath root index) = .ok raw ∧
          listedFrom disk root (index + 1) fuel = .ok more ∧ raws = raw :: more := by
  -- Where the number does not exist, nothing is read either.
  have hunread : disk.exists? (signaturePath root index) ≠ .ok true →
      ∀ raw, disk.read (signaturePath root index) ≠ .ok raw :=
    fun hnot raw hraw => hnot (Disk.exists_of_read hraw)
  rw [listedFrom]
  cases hthere : disk.exists? (signaturePath root index) with
  | error why =>
      rw [hthere] at hunread
      simp [hunread]
  | ok there =>
      rw [hthere] at hunread
      cases there with
      | false => simp [hunread, eq_comm]
      | true =>
          cases disk.read (signaturePath root index) with
          | error why => simp
          | ok raw =>
              cases listedFrom disk root (index + 1) fuel with
              | error f => simp [Except.map]
              | ok more => simp [Except.map, eq_comm]

/-- With more steps than there are signatures, reading comes to what is listed. -/
theorem listedFrom_eq_ok_iff (hfuel : raws.length < fuel) :
    listedFrom disk root index fuel = .ok raws ↔ Lists disk root index raws := by
  induction fuel generalizing index raws with
  | zero => exact absurd hfuel (Nat.not_lt_zero _)
  | succ fuel ih =>
      rw [listedFrom_succ_eq_ok_iff]
      cases raws with
      | nil =>
          rw [Lists.nil_iff]
          simp
      | cons raw raws =>
          rw [Lists.cons_iff, ← ih (Nat.lt_of_succ_lt_succ hfuel)]
          simp

theorem listedFrom_numbered (h : listedFrom disk root index fuel = .ok raws) (i : Nat)
    (hfirst : index ≤ i) (hlast : i < index + raws.length) :
    disk.exists? (signaturePath root i) = .ok true := by
  induction fuel generalizing index raws with
  | zero =>
      cases h
      exact absurd hlast (Nat.not_lt.mpr hfirst)
  | succ fuel ih =>
      rcases listedFrom_succ_eq_ok_iff.mp h with ⟨-, rfl⟩ | ⟨raw, more, found, hmore, rfl⟩
      · exact absurd hlast (Nat.not_lt.mpr hfirst)
      · rcases Nat.eq_or_lt_of_le hfirst with rfl | hlater
        · exact Disk.exists_of_read found
        · rw [List.length_cons] at hlast
          exact ih hmore hlater (by omega)

theorem length_le_of_listedFrom (h : listedFrom disk root 0 fuel = .ok raws) :
    raws.length ≤ disk.entries.length :=
  length_le_of_numbered fun i hi => listedFrom_numbered h i (Nat.zero_le i) (by omega)

/-- Reading a directory comes to what its disk lists, and reports at most. -/
theorem signatures_apply (root : Path) (h : Host σ) :
    ∃ j, signatures root h =
      (listedFrom h.disk root 0 (h.disk.entries.length + 1), { h with journal := j }) := by
  have henough : (enough : Act σ Nat) h = (.ok (h.disk.entries.length + 1), h) := rfl
  unfold signatures
  rw [Act.bind_ok henough, Act.bind_apply, signaturesFrom_apply]
  cases listedFrom h.disk root 0 (h.disk.entries.length + 1) with
  | ok raws => exact ⟨_, rfl⟩
  | error f => exact ⟨_, rfl⟩

/-- Reading a directory comes to these signatures just when it lists them. -/
theorem signatures_eq_ok_iff {h : Host σ} :
    (signatures root h).1 = .ok raws ↔ Lists h.disk root 0 raws := by
  obtain ⟨j, hread⟩ := signatures_apply root h
  rw [hread]
  constructor
  · intro hlisted
    have hlength := length_le_of_listedFrom hlisted
    exact (listedFrom_eq_ok_iff (by omega)).mp hlisted
  · intro hlists
    have hlength := length_le_of_listedFrom ((listedFrom_eq_ok_iff (Nat.lt_succ_self _)).mpr hlists)
    exact (listedFrom_eq_ok_iff (by omega)).mpr hlists

end Reading

/-- On the disk the directory holds this manifest and these signatures, and no further one. -/
structure Holds (disk : Disk) (root : Path) (content : Bytes) (raws : List Bytes) : Prop where
  manifest : disk.read (root.child manifestName) = .ok content
  found : ∀ (i : Nat) (raw : Bytes), raws[i]? = some raw →
    disk.read (signaturePath root i) = .ok raw
  missing : disk.exists? (signaturePath root raws.length) = .ok false

/-- The digest of a manifest. -/
def digestOf (content : Bytes) : Text :=
  Text.sentence ["sha256:", Text.ofHexBytes (Sha2.digest Sha2.sha256 content)]

section Holding

variable {g : Ground σ} {disk : Disk} {root : Path} {content : Bytes} {raws : List Bytes}

theorem Holds.lists (hd : Holds disk root content raws) : Lists disk root 0 raws := by
  refine Lists.iff_reads.mpr ⟨fun i raw hraw => ?_, ?_⟩
  · rw [Nat.zero_add]
    exact hd.found i raw hraw
  · rw [Nat.zero_add]
    exact hd.missing

theorem answers_manifestDigest (hdisk : ∀ h, g.holds h → h.disk = disk)
    (hd : Holds disk root content raws) :
    g.Answers (manifestDigest root) (.ok (digestOf content)) := by
  intro h hh
  rw [manifestDigest_apply, hdisk h hh, digestOn, hd.manifest]
  exact ⟨rfl, hh⟩

theorem answers_signatures (hdisk : ∀ h, g.holds h → h.disk = disk)
    (hd : Holds disk root content raws) : g.Answers (signatures root) (.ok raws) := by
  intro h hh
  obtain ⟨j, hread⟩ := signatures_apply root h
  refine ⟨signatures_eq_ok_iff.mpr (hdisk h hh ▸ hd.lists), ?_⟩
  rw [hread]
  exact g.report j hh

end Holding

end Directory

/-- What is read of an image's signatures is what is judged of them. -/
theorem Image.answers_readSignatures {g : Ground σ} {image : Image σ} {raws : List Bytes}
    (h : g.Answers image.signatures (.ok raws)) : g.Answers image.readSignatures (.ok raws) :=
  h.outcome.bind (.pure _)

end ImageTrust
