/-
# Completeness — every signature of a directory, or none

On any disk the numbers from one on that lead anywhere end at a first one that does not
(`Directory.Reaches`), and the entries of the disk are a bound on it.  Reading goes exactly that
far.  It comes to all of the contents in the order of their numbers when every number before the
end is a file; and when one of them is anything else, a directory among others, it fails on the
first such number (`Directory.Blocked`), and nothing of what was read before is handed on.

The end itself is told from an entry by asking the system, which has two ways of not answering:
the path is too long for it, or a directory on the way is sealed.  Then reading fails too, so
also there no signature is left out in silence.
-/
import Mathlib.Data.Nat.Find
import ImageTrust.Proofs.Listing

namespace ImageTrust

/-! ## What a path leads to -/

namespace Disk

variable {d : Disk} {path : Path}

/-- What a path leads to, if it leads anywhere. -/
def target? (d : Disk) (path : Path) : Option Node :=
  match d.locate path with
  | .ok p => d.node? p
  | .error _ => none

theorem target_of_locate {p : Place} (h : d.locate path = .ok p) : d.target? path = d.node? p := by
  unfold target?
  rw [h]

theorem exists_iff_target : d.exists? path = .ok true ↔ (d.target? path).isSome := by
  rw [exists_eq_true_iff]
  cases hp : d.locate path with
  | ok p => simp [target_of_locate hp]
  | error why => simp [target?, hp]

theorem read_eq_ok_iff {content : Bytes} :
    d.read path = .ok content ↔ d.target? path = some (.file content) := by
  unfold read
  cases hp : d.locate path with
  | error why => simp [target?, hp, bind, Except.bind]
  | ok p =>
      simp only [bind, Except.bind, target_of_locate hp]
      cases d.node? p with
      | none => simp
      | some node => cases node <;> simp

/-- A directory is not read as a file. -/
theorem read_of_directory (h : d.target? path = some .directory) :
    d.read path = .error (.system .isDirectory path) := by
  cases hp : d.locate path with
  | error why => simp [target?, hp] at h
  | ok p =>
      rw [target_of_locate hp] at h
      simp [read, hp, bind, Except.bind, h]

/-- Where a path leads nowhere, the system says so unless it cannot look that far. -/
theorem exists_of_no_target (h : d.target? path = none) :
    d.exists? path = .ok false ∨
      ∃ reason path', d.exists? path = .error (.system reason path') ∧
        (reason = .nameTooLong ∨ reason = .noPermission) := by
  cases hp : d.locate path with
  | ok p =>
      rw [target_of_locate hp] at h
      left
      simp [exists?, hp, h]
  | error why => cases why with
    | zeroByte =>
        left
        simp [exists?, hp]
    | surrogate other =>
        left
        simp [exists?, hp]
    | system reason other => cases reason <;> simp [exists?, hp]

end Disk

/-! ## How far a directory reaches -/

variable {σ : Type}

namespace Directory

variable {disk : Disk} {root : Path} {n m : Nat}

/-- So many numbers in a row lead to something, and the next one leads nowhere. -/
structure Reaches (disk : Disk) (root : Path) (n : Nat) : Prop where
  there : ∀ i < n, (disk.target? (signaturePath root i)).isSome
  gap : disk.target? (signaturePath root n) = none

namespace Reaches

theorem exists_there (h : Reaches disk root n) (i : Nat) (hi : i < n) :
    disk.exists? (signaturePath root i) = .ok true :=
  Disk.exists_iff_target.mpr (h.there i hi)

theorem not_exists (h : Reaches disk root n) : disk.exists? (signaturePath root n) ≠ .ok true := by
  intro hthere
  have hsome := Disk.exists_iff_target.mp hthere
  rw [h.gap] at hsome
  cases hsome

theorem unique (h : Reaches disk root n) (h' : Reaches disk root m) : m = n := by
  rcases Nat.lt_trichotomy m n with hlt | heq | hgt
  · exact absurd (h.exists_there m hlt) h'.not_exists
  · exact heq
  · exact absurd (h'.exists_there n hgt) h.not_exists

theorem le_entries (h : Reaches disk root n) : n ≤ disk.entries.length :=
  length_le_of_numbered h.exists_there

end Reaches

/-- Some number leads nowhere: there are more numbers than entries. -/
theorem exists_reaches (disk : Disk) (root : Path) : ∃ n, Reaches disk root n := by
  have hgap : ∃ n : Nat, disk.target? (signaturePath root n) = none := by
    by_contra hnone
    have hall : ∀ i < disk.entries.length + 1, disk.exists? (signaturePath root i) = .ok true := by
      intro i _
      refine Disk.exists_iff_target.mpr (Option.isSome_iff_ne_none.mpr ?_)
      intro hi
      exact hnone ⟨i, hi⟩
    exact Nat.not_succ_le_self _ (length_le_of_numbered hall)
  refine ⟨Nat.find hgap, fun i hi => ?_, Nat.find_spec hgap⟩
  exact Option.isSome_iff_ne_none.mpr (Nat.find_min hgap hi)

/-- These are the contents of the first files, in the order of their numbers. -/
def Filed (disk : Disk) (root : Path) (raws : List Bytes) : Prop :=
  ∀ (i : Nat) (raw : Bytes), raws[i]? = some raw →
    disk.target? (signaturePath root i) = some (.file raw)

theorem lists_iff_filed {raws : List Bytes} : Lists disk root 0 raws ↔
    Filed disk root raws ∧ disk.exists? (signaturePath root raws.length) = .ok false := by
  simp only [Lists.iff_reads, Filed, Nat.zero_add, Disk.read_eq_ok_iff]

/-! ## Reading up to the end -/

section Reading

variable {index fuel : Nat} {f : Fault}

/-- Steps beyond the first missing number are not taken. -/
theorem listedFrom_enough (h : Reaches disk root n) (hindex : index ≤ n) (hfuel : n < index + fuel) :
    listedFrom disk root index fuel = listedFrom disk root index (n - index + 1) := by
  -- The numbers up to the end get fewer with each step, and one step is left for the end.
  induction fuel generalizing index with
  | zero => omega
  | succ fuel ih =>
      rcases Nat.eq_or_lt_of_le hindex with rfl | hbefore
      · rw [Nat.sub_self, listedFrom, listedFrom]
        cases hend : disk.exists? (signaturePath root index) with
        | error why => rfl
        | ok there => cases there with
          | false => rfl
          | true => exact absurd hend h.not_exists
      · have hfewer : n - index + 1 = n - (index + 1) + 1 + 1 := by omega
        have hrest : listedFrom disk root (index + 1) fuel =
            listedFrom disk root (index + 1) (n - (index + 1) + 1) := ih hbefore (by omega)
        rw [hfewer, listedFrom, listedFrom, hrest]

/-- Reading the directory ends in failure at this number: the ones before it were read, and
for this one the system refuses to say whether it exists or to read what does. -/
structure Blocked (disk : Disk) (root : Path) (i : Nat) (why : Disk.Failure) : Prop where
  before : ∀ j < i, ∃ raw, disk.target? (signaturePath root j) = some (.file raw)
  refused : disk.exists? (signaturePath root i) = .error why ∨
    disk.exists? (signaturePath root i) = .ok true ∧ disk.read (signaturePath root i) = .error why

/-- A directory in the way is refused as what it is. -/
theorem Blocked.of_directory {i : Nat} {why : Disk.Failure} (h : Blocked disk root i why)
    (hi : disk.target? (signaturePath root i) = some .directory) :
    why = .system .isDirectory (signaturePath root i) := by
  have hthere : disk.exists? (signaturePath root i) = .ok true := by
    rw [Disk.exists_iff_target, hi]
    rfl
  rcases h.refused with hrefused | ⟨-, hrefused⟩
  · rw [hthere] at hrefused
    cases hrefused
  · rw [Disk.read_of_directory hi] at hrefused
    exact (Except.error.inj hrefused).symm

/-- Reading fails only where the system refuses. -/
theorem blocked_of_listedFrom
    (hbefore : ∀ j < index, ∃ raw, disk.target? (signaturePath root j) = some (.file raw))
    (h : listedFrom disk root index fuel = .error f) :
    ∃ i why, f = .disk why ∧ Blocked disk root i why := by
  induction fuel generalizing index with
  | zero => cases h
  | succ fuel ih =>
      rw [listedFrom] at h
      cases hthere : disk.exists? (signaturePath root index) with
      | error why =>
          rw [hthere] at h
          cases h
          exact ⟨index, why, rfl, hbefore, .inl hthere⟩
      | ok there =>
          rw [hthere] at h
          cases there with
          | false => cases h
          | true =>
              cases hread : disk.read (signaturePath root index) with
              | error why =>
                  rw [hread] at h
                  cases h
                  exact ⟨index, why, rfl, hbefore, .inr ⟨hthere, hread⟩⟩
              | ok raw =>
                  rw [hread] at h
                  refine ih ?_ (Result.map_eq_error_iff.mp h)
                  intro j hj
                  rcases Nat.lt_succ_iff_lt_or_eq.mp hj with hj | rfl
                  · exact hbefore j hj
                  · exact ⟨raw, Disk.read_eq_ok_iff.mp hread⟩

/-- Reading a directory fails where it is blocked. -/
theorem blocked_of_signatures {h : Host σ} (hread : (signatures root h).1 = .error f) :
    ∃ i why, f = .disk why ∧ Blocked h.disk root i why := by
  obtain ⟨j, happly⟩ := signatures_apply root h
  rw [happly] at hread
  exact blocked_of_listedFrom (fun j hj => absurd hj (Nat.not_lt_zero j)) hread

/-- What is listed from the first number on are files, and all there is up to the end. -/
theorem Reaches.length_eq {raws : List Bytes} (h : Reaches disk root n)
    (hlists : Lists disk root 0 raws) : raws.length = n := by
  obtain ⟨hfiled, hmissing⟩ := lists_iff_filed.mp hlists
  refine h.unique ⟨fun i hi => ?_, ?_⟩
  · rw [hfiled i raws[i] (List.getElem?_eq_getElem hi)]
    rfl
  · cases hend : disk.target? (signaturePath root raws.length) with
    | none => rfl
    | some node =>
        have hthere := Disk.exists_iff_target.mpr (Option.isSome_iff_exists.mpr ⟨node, hend⟩)
        rw [hmissing] at hthere
        cases hthere

end Reading

end Directory

/-! ## What the reading of an image makes of it -/

namespace Image

variable {image : Image σ} {h : Host σ} {f : Fault}

theorem readSignatures_eq_ok_iff {raws : List Bytes} :
    (image.readSignatures h).1 = .ok raws ↔ (image.signatures h).1 = .ok raws := by
  unfold readSignatures
  rw [Act.outcome_bind_apply]
  generalize image.signatures h = read
  obtain ⟨answer, h'⟩ := read
  cases answer with
  | ok raws => rfl
  | error f =>
      by_cases hf : f.isA .signatureFetch
      · simp [hf]
      · simp only [hf, Bool.false_eq_true, if_false]
        constructor <;> nofun

/-- What the system refuses is told as a failure to fetch the signatures. -/
theorem readSignatures_of_refused {why : Disk.Failure}
    (hread : (image.signatures h).1 = .error (.disk why)) :
    (image.readSignatures h).1 = .error (.fetchFailed image.reference.shown (.disk why)) := by
  have hother : (Fault.disk why).isA .signatureFetch = false := by
    cases why with
    | zeroByte => rfl
    | surrogate path => rfl
    | system reason path => cases reason <;> rfl
  unfold readSignatures
  rw [Act.outcome_bind_apply, hread]
  simp only [hother]
  rfl

end Image

namespace Directory

/-- On every disk a directory reaches to some number, below as many entries as there are, and
reading ends there however many steps it is given.  If all that is there are files, it comes to
their contents in the order of their numbers; and if not, or if the system refuses to say that
the next number is missing, it fails for what is in the way first, which the image tells as a
failure to fetch its signatures.  So what is read is never a part of what is there. -/
theorem signatures_all_or_none (root : Path) (reference : ImageReference σ) (h : Host σ) :
    ∃ n ≤ h.disk.entries.length, Reaches h.disk root n ∧
      (h.disk.exists? (signaturePath root n) = .ok false ∨
        ∃ reason path, h.disk.exists? (signaturePath root n) = .error (.system reason path) ∧
          (reason = .nameTooLong ∨ reason = .noPermission)) ∧
      (∀ fuel, n < fuel → (signaturesFrom root 0 fuel h).1 = (signatures root h).1) ∧
      (∀ raws, raws.length = n → Filed h.disk root raws →
        h.disk.exists? (signaturePath root n) = .ok false →
          (signatures root h).1 = .ok raws ∧
            ((image root reference).readSignatures h).1 = .ok raws) ∧
      ((∃ i < n, ∀ raw, h.disk.target? (signaturePath root i) ≠ some (.file raw)) ∨
          h.disk.exists? (signaturePath root n) ≠ .ok false →
        ∃ i ≤ n, ∃ why, Blocked h.disk root i why ∧
          (h.disk.target? (signaturePath root i) = some .directory →
            why = .system .isDirectory (signaturePath root i)) ∧
          (signatures root h).1 = .error (.disk why) ∧
          ((image root reference).readSignatures h).1 =
            .error (.fetchFailed reference.shown (.disk why))) ∧
      ∀ raws, ((image root reference).readSignatures h).1 = .ok raws →
        raws.length = n ∧ Filed h.disk root raws := by
  obtain ⟨n, hn⟩ := exists_reaches h.disk root
  have hbound := hn.le_entries
  -- What is read is listed, so it is all the files up to the end, and the end was told.
  have hread : ∀ raws, (signatures root h).1 = .ok raws →
      raws.length = n ∧ Filed h.disk root raws ∧
        h.disk.exists? (signaturePath root n) = .ok false := by
    intro raws hraws
    have hlists := signatures_eq_ok_iff.mp hraws
    have hlength := hn.length_eq hlists
    obtain ⟨hfiled, hmissing⟩ := lists_iff_filed.mp hlists
    rw [hlength] at hmissing
    exact ⟨hlength, hfiled, hmissing⟩
  refine ⟨n, hbound, hn, Disk.exists_of_no_target hn.gap, ?ends, ?whole, ?fails, ?part⟩
  case ends =>
    intro fuel hfuel
    obtain ⟨j, happly⟩ := signatures_apply root h
    rw [signaturesFrom_apply, happly]
    show listedFrom h.disk root 0 fuel = listedFrom h.disk root 0 (h.disk.entries.length + 1)
    have hgiven : listedFrom h.disk root 0 fuel = _ :=
      listedFrom_enough hn (Nat.zero_le n) (by omega)
    have henough : listedFrom h.disk root 0 (h.disk.entries.length + 1) = _ :=
      listedFrom_enough hn (Nat.zero_le n) (by omega)
    exact hgiven.trans henough.symm
  case whole =>
    intro raws hlength hfiled hmissing
    rw [← hlength] at hmissing
    have hraws := signatures_eq_ok_iff.mpr (lists_iff_filed.mpr ⟨hfiled, hmissing⟩)
    exact ⟨hraws, Image.readSignatures_eq_ok_iff.mpr hraws⟩
  case fails =>
    intro hbad
    cases hresult : (signatures root h).1 with
    | ok raws =>
        obtain ⟨hlength, hfiled, hmissing⟩ := hread raws hresult
        rcases hbad with ⟨i, hi, hnofile⟩ | hrefused
        · have hsome : raws[i]? = some raws[i] := List.getElem?_eq_getElem (by omega)
          exact absurd (hfiled i _ hsome) (hnofile _)
        · exact absurd hmissing hrefused
    | error f =>
        obtain ⟨i, why, rfl, hblocked⟩ := blocked_of_signatures hresult
        have hi : i ≤ n := by
          by_contra hbeyond
          obtain ⟨raw, hraw⟩ := hblocked.before n (Nat.lt_of_not_le hbeyond)
          rw [hn.gap] at hraw
          cases hraw
        exact ⟨i, hi, why, hblocked, hblocked.of_directory, rfl,
          Image.readSignatures_of_refused hresult⟩
  case part =>
    intro raws hraws
    obtain ⟨hlength, hfiled, -⟩ := hread raws (Image.readSignatures_eq_ok_iff.mp hraws)
    exact ⟨hlength, hfiled⟩

/-- Two files before a gap are all that is read, and a directory in the place of the second one
leaves nothing. -/
example :
    let disk : Disk := ⟨[(["signature-4"], .directory), (["signature-2"], .file [50]),
      (["signature-1"], .file [49])], []⟩
    let broken := disk.put ["signature-2"] .directory
    listedFrom disk (.ofText ".") 0 4 = .ok [[49], [50]] ∧
      listedFrom broken (.ofText ".") 0 4 =
        .error (.disk (.system .isDirectory (signaturePath (.ofText ".") 1))) := by
  constructor <;> rfl

end Directory

end ImageTrust
