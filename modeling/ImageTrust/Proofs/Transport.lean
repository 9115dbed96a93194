/-
# Transport — where the signatures come from makes no difference

The signatures of an image are read from a directory, file after file, or asked for at a
lookaside store, request after request.  If both have the same signatures of the same
manifest, the two images have one profile, and so a context decides alike on them
(`decisions_of_transported`), faults included.

The server may be slow to answer: each request may fail on its way fewer times than there are
attempts, and no request has to be answered as the one before it.
-/
import ImageTrust.Proofs.Cuts
import ImageTrust.Proofs.Listing
import ImageTrust.Proofs.Profile
import ImageTrust.Proofs.Retry

namespace ImageTrust

variable {σ : Type}

/-! ## Digests of manifests -/

namespace Sha2

theorem length_bigEndian (count n : Nat) : (bigEndian count n).length = count := by
  unfold bigEndian
  rw [List.length_map, List.length_reverse, List.length_range]

/-- A digest has as many bytes as eight words. -/
theorem length_digest {w : Nat} (v : Variant w) (message : Bytes) :
    (digest v message).length = 8 * (w / 8) := by
  unfold digest
  dsimp only
  rw [List.length_flatMap]
  simp only [length_bigEndian, List.map_const', List.sum_replicate_nat]
  rfl

end Sha2

theorem Text.ofHexBytes_ne_nil {bytes : Bytes} (h : bytes ≠ []) : ofHexBytes bytes ≠ [] := by
  cases bytes with
  | nil => exact absurd rfl h
  | cons b bytes =>
      have hdigits : digits 16 b.toNat ≠ [] := by
        unfold digits
        simp [Nat.toDigits_ne_nil]
      unfold ofHexBytes
      rw [List.flatMap_cons]
      exact List.append_ne_nil_of_left_ne_nil (List.append_ne_nil_of_right_ne_nil _ hdigits) _

/-- The digest of a manifest names its algorithm. -/
theorem Directory.digestParts_digestOf (content : Bytes) :
    Lookaside.digestParts (digestOf content) =
      .ok ("sha256", Text.ofHexBytes (Sha2.digest Sha2.sha256 content)) := by
  have hbytes : Sha2.digest Sha2.sha256 content ≠ [] := by
    refine List.ne_nil_of_length_pos ?_
    rw [Sha2.length_digest]
    decide
  have hcut : (digestOf content).cutFirst? ':' =
      some (Text.ofString "sha256", Text.ofHexBytes (Sha2.digest Sha2.sha256 content)) := by
    have hsplit : digestOf content = Text.ofString "sha256" ++
        CodePoint.ofChar ':' :: Text.ofHexBytes (Sha2.digest Sha2.sha256 content) := by
      unfold digestOf Text.sentence
      rw [List.flatten_cons, List.flatten_cons, List.flatten_nil, List.append_nil]
      rfl
    rw [hsplit]
    exact Text.cutFirst?_append (by decide) _
  have hfilled : ¬(Text.ofString "sha256" = [] ∨
      Text.ofHexBytes (Sha2.digest Sha2.sha256 content) = []) := by
    rintro (hname | hhex)
    · exact absurd hname (by decide)
    · exact Text.ofHexBytes_ne_nil hbytes hhex
  unfold Lookaside.digestParts
  rw [hcut]
  dsimp only
  rw [if_neg hfilled]

/-! ## One profile -/

section Fitting

variable {g : Ground σ} {disk : Disk} {root : Path} {content : Bytes} {raws : List Bytes}
  {a : Address} {store : Lookaside σ} {r : Reference} {attempts : Nat}

theorem Directory.image_fits (room : Room) (hdisk : ∀ h, g.holds h → h.disk = disk)
    (hd : Directory.Holds disk root content raws) :
    (Directory.image root a.toImageReference : Image σ).Fits g
      (a.profile room disk (.ok (Directory.digestOf content)) (.ok raws)) := by
  have hraws : g.Answers (Directory.image root a.toImageReference).signatures (.ok raws) :=
    Directory.answers_signatures hdisk hd
  exact Image.fits_of_address rfl hdisk (Directory.answers_manifestDigest hdisk hd)
    (Image.answers_readSignatures hraws)

theorem Lookaside.image_fits (room : Room) (hdisk : ∀ h, g.holds h → h.disk = disk)
    (ha : a.reference = some r)
    (hs : store.Serves g r (Directory.digestOf content) raws attempts)
    (hattempts : store.backoff.attempts = .whole attempts) (hmost : attempts ≤ 1024)
    (hcap : (raws.length : Int) ≤ store.maxSignatures) :
    (store.image a.toImageReference (Directory.digestOf content)).Fits g
      (a.profile room disk (.ok (Directory.digestOf content)) (.ok raws)) := by
  have hraws : g.Answers (store.image a.toImageReference (Directory.digestOf content)).signatures
      (.ok raws) := by
    have hlisted := Lookaside.answers_signatures hs hattempts hmost
      (Directory.digestParts_digestOf content) hcap
    unfold Lookaside.image Address.toImageReference
    rw [ha]
    exact hlisted
  exact Image.fits_of_address rfl hdisk (.pure _) (Image.answers_readSignatures hraws)

end Fitting

/-! ## One decision -/

namespace Context

variable {c : Context σ} {g : Ground σ} {disk : Disk} {root : Path} {content : Bytes}
  {raws : List Bytes} {a : Address} {room : Room} {store : Lookaside σ} {r : Reference}
  {attempts v : Nat} {h h' : Host σ}

/-- If a directory and a lookaside store have the same signatures of the same manifest, a
context without a check of base layers decides alike on the image in the directory and on the
one of the store: the same signatures or the same fault, and the same permission or the same
reason against it. -/
theorem decisions_of_transported (hv : c.environment.verifier = Verifier.ed25519 room v)
    (hbare : c.environment.baseLayerCheck = none) (hdisk : ∀ h, g.holds h → h.disk = disk)
    (ha : a.reference = some r) (hd : Directory.Holds disk root content raws)
    (hs : store.Serves g r (Directory.digestOf content) raws attempts)
    (hattempts : store.backoff.attempts = .whole attempts) (hmost : attempts ≤ 1024)
    (hcap : (raws.length : Int) ≤ store.maxSignatures) (hb : c.BeginsOn g h)
    (hb' : c.BeginsOn g h') :
    (c.signaturesWithAcceptedAuthor (Directory.image root a.toImageReference) h).1 =
        (c.signaturesWithAcceptedAuthor
          (store.image a.toImageReference (Directory.digestOf content)) h').1 ∧
      (c.isRunningAllowed (Directory.image root a.toImageReference) h).1 =
        (c.isRunningAllowed
          (store.image a.toImageReference (Directory.digestOf content)) h').1 := by
  have hfiled := Directory.image_fits (a := a) room hdisk hd
  have hserved := Lookaside.image_fits room hdisk ha hs hattempts hmost hcap
  have hcheck : ∀ image, c.environment.ChecksBy g image fun _ => .allow := by
    intro image hook hbrought
    rw [hbare] at hbrought
    cases hbrought
  constructor
  · rw [signaturesWithAcceptedAuthor_of_fits hfiled hv hb,
      signaturesWithAcceptedAuthor_of_fits hserved hv hb']
  · rw [isRunningAllowed_of_fits hfiled hv (hcheck _) hb,
      isRunningAllowed_of_fits hserved hv (hcheck _) hb']

end Context

namespace Specimen

/-- What a server has under an address, by the number at its end. -/
def shelf (url : Text) : Response :=
  if url.getLast? = some '1' then ⟨200, stored⟩
  else if url.getLast? = some '2' then ⟨206, []⟩
  else ⟨404, []⟩

/-- A store whose server cannot be reached every other time. -/
def flaky : Lookaside Bool where
  baseUrl := "https://s.b"
  get url h :=
    if h.beyond then (.error (.given .connectError ""), { h with beyond := false })
    else (.ok (shelf url), { h with beyond := true })
  sleep _ := pure ()
  backoff := ⟨.whole 2, .whole 1, .whole 8⟩
  maxSignatures := 2
  reach := 0

/-- The context of the specimen, on a host that keeps whether that server is to be reached. -/
def contextThere : Context Bool := ⟨0, context.policy, ⟨Verifier.ed25519 .standard 0, none⟩⟩

def filed : Image Bool := Directory.image (Path.ofText ".") address.toImageReference

def served : Image Bool :=
  flaky.image address.toImageReference (Directory.digestOf (Text.utf8Bytes "\x7b\x7d"))

/-- A request that fails is answered when it is made again. -/
theorem flaky_brings {s : Stage} {url : Text} {found : Option Bytes}
    (hfound : (shelf url).Brings found) :
    flaky.BringsAt (Ground.still 0 disk s) 2 url found := by
  rintro ⟨there, stages, caches, journal, down⟩ ⟨hdisk, hstage⟩
  cases down with
  | false => exact .now rfl hfound ⟨hdisk, hstage⟩
  | true =>
      refine .later rfl rfl ⟨hdisk, hstage⟩ fun j d => ?_
      exact .now rfl hfound ⟨hdisk, hstage⟩

/-- An address of a signature ends as its number does. -/
theorem getLast?_signatureUrl {baseUrl : Text} {r : Reference} {digest url : Text} {index : Int}
    (h : Lookaside.signatureUrl baseUrl r digest index = .ok url) :
    url.getLast? = (Text.integer (index + 1)).getLast? := by
  obtain ⟨⟨algorithm, hex⟩, -, hurl⟩ := Result.bind_eq_ok_iff.mp h
  cases hurl
  have hlast := List.getLast?_eq_some_getLast (Text.integer_ne_nil (index + 1))
  unfold Text.sentence
  simp only [List.flatten_cons, List.flatten_nil, List.append_nil, List.getLast?_append, hlast,
    Option.some_or]

theorem flaky_serves {s : Stage} {r : Reference} {digest : Text} :
    flaky.Serves (Ground.still 0 disk s) r digest [stored, []] 2 where
  sleeps _ _ _ := .pure ()
  brings i hi url hurl := by
    refine flaky_brings ?_
    have hlast := getLast?_signatureUrl hurl
    unfold shelf
    rw [hlast]
    match i, hi with
    | 0, _ => exact ⟨by decide, by decide, rfl⟩
    | 1, _ => exact ⟨by decide, by decide, rfl⟩
    | 2, _ => exact rfl

theorem disk_holds :
    Directory.Holds disk (Path.ofText ".") (Text.utf8Bytes "\x7b\x7d") [stored, []] where
  manifest := rfl
  found
    | 0, _, h => Option.some.inj h ▸ rfl
    | 1, _, h => Option.some.inj h ▸ rfl
  missing := rfl

end Specimen

open Specimen in
/-- The signatures on the disk, and the same ones from a server that fails every other time. -/
theorem decisions_of_transported_specimen :
    Directory.Holds disk (Path.ofText ".") (Text.utf8Bytes "\x7b\x7d") [stored, []] ∧
      flaky.backoff.attempts = .whole 2 ∧ ([stored, []].length : Int) ≤ flaky.maxSignatures ∧
      (contextThere.signaturesWithAcceptedAuthor filed (Host.fresh disk false)).1 =
        (contextThere.signaturesWithAcceptedAuthor served (Host.fresh disk true)).1 ∧
      (contextThere.isRunningAllowed filed (Host.fresh disk false)).1 =
        (contextThere.isRunningAllowed served (Host.fresh disk true)).1 := by
  refine ⟨disk_holds, rfl, by decide, ?_⟩
  exact Context.decisions_of_transported rfl rfl (fun _ hh => And.left hh) rfl disk_holds
    flaky_serves rfl (by decide) (by decide)
    (Context.beginsOn_still (h := Host.fresh disk false) rfl)
    (Context.beginsOn_still (h := Host.fresh disk true) rfl)

end ImageTrust
