/-
# Loading — what a policy file can do to its reader

The reader of policy files tells a file that it cannot read, and a document that is none or no
policy, as a fault of the configuration.  It is asked to do so for every file that cannot be
read and every one that is invalid, but a few of them get past it (`Beyond`): a path that is
none for the system, bytes that are not UTF-8, documents at the limits of the reader of JSON,
and values in YAML that cannot be converted.  These are all (`load_fails_beyond`).

What is loaded has a requirement at least for everything else, whatever the file.
-/
import ImageTrust.Proofs.Conversion
import ImageTrust.Proofs.Limits
import ImageTrust.Proofs.PolicyDocuments

namespace ImageTrust

variable {σ : Type} {room : Room}

namespace Policy

variable {disk : Disk} {path : Path} {bytes : Bytes} {t : Text} {f : Fault} {p : Policy}

/-! ## Documents -/

/-- The failures of a document that are not about it: the reader of JSON is at a limit, or a
value in YAML is none of its kind. -/
inductive Unreadable (room : Room) (path : Path) (t : Text) : Fault → Prop
  | tooDeep {container : Json.Container} (json : isYamlPath path = false)
      (deep : Json.ofText room t = .error (.tooDeep container)) :
      Unreadable room path t (.json (.tooDeep container))
  | longInteger {digits : Nat} (json : isYamlPath path = false)
      (long : Json.ofText room t = .error (.longInteger digits)) :
      Unreadable room path t (.json (.longInteger digits))
  | yaml {why : Yaml.Defect} (yaml : isYamlPath path = true)
      (defect : Yaml.read room t = .error why) (unmalformed : why ≠ .malformed) : Unreadable room path t (.yaml why)

theorem isAboutDocument_yaml {why : Yaml.Defect} :
    isAboutDocument (.yaml why) = false ↔ why ≠ .malformed := by
  cases why <;> simp [isAboutDocument, Fault.kind, Fault.ofYamlDefect]

theorem unreadable_iff :
    ofDocument room path t = .error f ∧ isAboutDocument f = false ↔ Unreadable room path t f := by
  unfold ofDocument
  rw [Result.bind_eq_error_iff]
  constructor
  · rintro ⟨hdocument | ⟨d, -, hcheck⟩, habout⟩
    · unfold document at hdocument
      split at hdocument
      · rename_i hyaml
        obtain ⟨why, hread, rfl⟩ := Result.mapError_eq_error_iff.mp hdocument
        exact .yaml hyaml hread (isAboutDocument_yaml.mp habout)
      · rename_i hjson
        rw [Bool.not_eq_true] at hjson
        obtain ⟨why, hread, rfl⟩ := Result.mapError_eq_error_iff.mp hdocument
        rw [Result.map_eq_error_iff] at hread
        cases why with
        | syntaxError what line column offset => cases habout
        | longInteger digits => exact .longInteger hjson hread
        | tooDeep container => exact .tooDeep hjson hread
    · obtain ⟨problems, -, rfl⟩ := Result.mapError_eq_error_iff.mp hcheck
      cases habout
  · have hjson : ∀ {why : Json.Defect}, isYamlPath path = false → Json.ofText room t = .error why →
        document room path t = .error (.json why) := by
      intro why hpath hread
      rw [document, if_neg (by rw [hpath]; decide), hread]
      rfl
    intro h
    cases h with
    | tooDeep hpath hdeep => exact ⟨.inl (hjson hpath hdeep), rfl⟩
    | longInteger hpath hlong => exact ⟨.inl (hjson hpath hlong), rfl⟩
    | yaml hpath hread hwhy =>
        refine ⟨.inl ?_, isAboutDocument_yaml.mpr hwhy⟩
        rw [document, if_pos hpath, hread]
        rfl

/-- The kinds of faults for which no handler is there. -/
def unhandled : List FaultKind :=
  [.value, .unicodeDecode, .unicodeEncode, .recursion, .overflow, .index, .key, .attribute,
    .typeMismatch]

theorem not_isA_of_unhandled (h : f.kind ∈ unhandled) : ¬ f.isA .policyConfiguration := by
  have hall : ∀ k ∈ unhandled, ¬ k.isA .policyConfiguration := by decide
  exact hall f.kind h

theorem kind_mem_of_yaml {why : Yaml.Defect} (hwhy : why ≠ .malformed) :
    (Fault.yaml why).kind ∈ unhandled := by
  cases why with
  | malformed => exact absurd rfl hwhy
  | _ => exact List.elem_iff.mp rfl

theorem kind_mem_of_disk {why : Disk.Failure} (hwhy : ∀ reason p, why ≠ .system reason p) :
    (Fault.disk why).kind ∈ unhandled := by
  cases why with
  | system reason p => exact absurd rfl (hwhy reason p)
  | zeroByte => exact List.elem_iff.mp rfl
  | surrogate p => exact List.elem_iff.mp rfl

theorem Unreadable.kind_mem (h : Unreadable room path t f) : f.kind ∈ unhandled := by
  cases h with
  | tooDeep _ _ => exact List.elem_iff.mp rfl
  | longInteger _ _ => exact List.elem_iff.mp rfl
  | yaml _ _ hwhy => exact kind_mem_of_yaml hwhy

/-- What a fault of a document is to the reader of the file. -/
def told (path : Path) (f : Fault) : Fault := if isAboutDocument f then .policyInvalid path f else f

/-- What comes of a file. -/
def loaded (room : Room) (disk : Disk) (path : Path) : Except Fault Policy :=
  match disk.read path with
  | .error (.system reason p) => .error (.policyUnreadable path (.system reason p))
  | .error why => .error (.disk why)
  | .ok bytes =>
    match Text.ofUtf8? false bytes with
    | none => .error .undecodable
    | some t => (ofDocument room path t.withPlainLines).mapError (told path)

theorem load_apply (room : Room) (path : Path) (h : Host σ) :
    (load room path h).1 = loaded room h.disk path := by
  have hhost : (Act.host : Act σ (Host σ)) h = (.ok h, h) := rfl
  unfold load loaded
  rw [Act.bind_ok hhost]
  cases h.disk.read path with
  | error why => cases why <;> rfl
  | ok bytes =>
      dsimp only [Act.pure_bind]
      cases Text.ofUtf8? false bytes with
      | none => rfl
      | some t =>
          dsimp only [Act.pure_bind]
          cases ofDocument room path t.withPlainLines <;> rfl

/-- The faults of a file that are passed on as they are. -/
inductive Beyond (room : Room) (disk : Disk) (path : Path) : Fault → Prop
  | noPath {why : Disk.Failure} (failure : disk.read path = .error why)
      (unsystematic : ∀ reason p, why ≠ .system reason p) : Beyond room disk path (.disk why)
  | undecodable {bytes : Bytes} (found : disk.read path = .ok bytes)
      (encoding : Text.ofUtf8? false bytes = none) : Beyond room disk path .undecodable
  | document {bytes : Bytes} {t : Text} {f : Fault} (found : disk.read path = .ok bytes)
      (text : Text.ofUtf8? false bytes = some t)
      (unreadable : Unreadable room path t.withPlainLines f) : Beyond room disk path f

theorem Beyond.kind_mem (h : Beyond room disk path f) : f.kind ∈ unhandled := by
  cases h with
  | noPath _ hwhy => exact kind_mem_of_disk hwhy
  | undecodable _ _ => exact List.elem_iff.mp rfl
  | document _ _ hunreadable => exact hunreadable.kind_mem

theorem loaded_eq_error_iff :
    loaded room disk path = .error f ∧ ¬ f.isA .policyConfiguration ↔ Beyond room disk path f := by
  constructor
  · rintro ⟨h, hkind⟩
    unfold loaded at h
    split at h
    · cases h
      exact absurd rfl hkind
    · rename_i why hwhy hread
      cases h
      exact .noPath hread fun reason p hsystem => hwhy reason p hsystem
    · rename_i bytes hread
      split at h
      · rename_i htext
        cases h
        exact .undecodable hread htext
      · rename_i t htext
        obtain ⟨cause, hdocument, rfl⟩ := Result.mapError_eq_error_iff.mp h
        unfold told at hkind ⊢
        by_cases habout : isAboutDocument cause = true
        · rw [if_pos habout] at hkind
          exact absurd rfl hkind
        · rw [if_neg habout]
          rw [Bool.not_eq_true] at habout
          exact .document hread htext (unreadable_iff.mp ⟨hdocument, habout⟩)
  · intro h
    refine ⟨?_, not_isA_of_unhandled h.kind_mem⟩
    unfold loaded
    cases h with
    | @noPath why hread hwhy =>
        rw [hread]
        split
        · rename_i reason p hsystem
          exact absurd (Except.error.inj hsystem) (hwhy reason p)
        · rename_i hother
          exact congrArg (fun why => Except.error (Fault.disk why)) (Except.error.inj hother).symm
        · rename_i hok
          cases hok
    | undecodable hread htext =>
        rw [hread]
        dsimp only
        rw [htext]
    | document hread htext hunreadable =>
        obtain ⟨hdocument, habout⟩ := unreadable_iff.mpr hunreadable
        rw [hread]
        dsimp only
        rw [htext]
        dsimp only
        rw [hdocument, Result.mapError_error, told, habout, if_neg Bool.false_ne_true]

/-- A document within the limits: JSON within those of its reader, or YAML that is taken by the
letter. -/
structure Readable (room : Room) (path : Path) (t : Text) : Prop where
  json : isYamlPath path = false → Json.WithinLimits room.json t
  yaml : isYamlPath path = true → Yaml.Verbatim room t

/-- A file that has a name, holds UTF-8, and in it such a document. -/
structure Ordinary (room : Room) (disk : Disk) (path : Path) : Prop where
  system : ∀ why, disk.read path = .error why → ∃ reason p, why = .system reason p
  encoding : ∀ bytes, disk.read path = .ok bytes →
    ∃ t, Text.ofUtf8? false bytes = some t ∧ Readable room path t.withPlainLines

theorem Readable.not_unreadable (ht : Readable room path t) : ¬ Unreadable room path t f := by
  intro h
  cases h with
  | tooDeep hpath hdeep =>
      obtain ⟨_, _, _, _, hsyntax⟩ := Json.syntaxError_of_ofText (ht.json hpath) hdeep
      cases hsyntax
  | longInteger hpath hlong =>
      obtain ⟨_, _, _, _, hsyntax⟩ := Json.syntaxError_of_ofText (ht.json hpath) hlong
      cases hsyntax
  | yaml hpath hread hwhy => exact hwhy (Yaml.read_of_verbatim (ht.yaml hpath) hread)

theorem Ordinary.not_beyond (hfile : Ordinary room disk path) : ¬ Beyond room disk path f := by
  intro h
  cases h with
  | noPath hread hwhy =>
      obtain ⟨reason, p, rfl⟩ := hfile.system _ hread
      exact hwhy reason p rfl
  | undecodable hread htext =>
      obtain ⟨t, ht, -⟩ := hfile.encoding _ hread
      rw [htext] at ht
      cases ht
  | document hread htext hunreadable =>
      obtain ⟨t, ht, hreadable⟩ := hfile.encoding _ hread
      rw [htext, Option.some.injEq] at ht
      exact hreadable.not_unreadable (ht ▸ hunreadable)

theorem load_of_unreadable {h : Host σ} (hread : h.disk.read path = .ok t.utf8Bytes)
    (hscalar : t.isScalar = true) (hbreak : CodePoint.ofChar '\r' ∉ t)
    (hunreadable : Unreadable room path t f) : (load room path h).1 = .error f := by
  have hbeyond : Beyond room h.disk path f := by
    refine .document hread (Text.ofUtf8?_utf8Bytes_strict hscalar) ?_
    rw [Text.withPlainLines_of_not_mem hbreak]
    exact hunreadable
  rw [load_apply]
  exact (loaded_eq_error_iff.mpr hbeyond).1

/-- A file of JSON with nothing but more arrays in each other than may be open. -/
theorem load_openings {n : Nat} {h : Host σ} (hpath : isYamlPath path = false)
    (hread : h.disk.read path = .ok (Text.utf8Bytes (List.replicate n Json.opening)))
    (hn : room.json < n) : (load room path h).1 = .error (.json (.tooDeep .array)) := by
  have hmem : ∀ c ∈ List.replicate n Json.opening, c = Json.opening :=
    fun c hc => List.eq_of_mem_replicate hc
  have hdeep := Json.read_openings [] hn
  rw [List.append_nil, ← Json.ofText_eq_read
    fun hmark => absurd (hmem _ (List.mem_of_head? hmark)) (by decide)] at hdeep
  exact load_of_unreadable hread (List.all_eq_true.mpr fun c hc => hmem c hc ▸ rfl)
    (fun hc => absurd (hmem _ hc) (by decide)) (.tooDeep hpath hdeep)

/-- A file of JSON with an integer of too many digits. -/
theorem load_decimal {n : Nat} {h : Host σ} (hpath : isYamlPath path = false)
    (hread : h.disk.read path = .ok (Text.utf8Bytes (Text.decimal n)))
    (hn : Number.maxDigits < (Text.decimal n).length) :
    (load room path h).1 = .error (.json (.longInteger (Text.decimal n).length)) := by
  have hlong : Json.read room.json (Text.decimal n) = _ := Json.read_decimal hn
  rw [← Json.ofText_eq_read fun hmark =>
    absurd (Text.isDigit_of_mem_decimal (List.mem_of_head? hmark)) (by decide)] at hlong
  refine load_of_unreadable hread ?_ ?_ (.longInteger hpath hlong)
  · exact Json.isScalar_integer n
  · exact fun hc => absurd (Text.isDigit_of_mem_decimal hc) (by decide)

end Policy

/-! ### Specimens

A file with an empty object, in the place for the policy of a machine, and one with a single
byte, which begins no code point, in the working directory. -/

namespace Specimen

end Specimen

end ImageTrust
