/-
# Retry — calls that come through in the end

A call that fails for a reason that passes is made again.  What such a call comes to in the
end cannot be said of one host alone: each failure, the report of it and the wait move the
host on, and a server may answer from its own state.  So "after fewer failures than there are
attempts" is an inductive predicate on the hosts that the attempts pass through
(`Backoff.ComesWithin`), and the retry loop follows it step by step.

With that a lookaside store lists what its server has, in order and completely, as long as
there are at most as many signatures as the store allows.
-/
import ImageTrust.Lookaside
import ImageTrust.Proofs.Ground

namespace ImageTrust

variable {σ α : Type}

/-! ## The loop -/

namespace Backoff

/-- The delays are defined up to as many failures as a double has binary places for. -/
theorem delay_eq_ok (b : Backoff) (failures : Nat) (hf : failures ≤ 1024) :
    ∃ d, b.delay failures = .ok d := by
  have hgrown : ∃ d, grown b.base failures = .ok d := by
    unfold grown
    cases b.base with
    | whole i => exact ⟨_, rfl⟩
    | binary x => exact ⟨_, if_neg (by omega)⟩
  obtain ⟨d, hd⟩ := hgrown
  exact ⟨d.least b.cap, congrArg (Except.map _) hd⟩

theorem count_whole {n : Nat} (hn : 1 ≤ n) : count (.whole n) = .ok n := by
  have hlt : Number.lt (.whole n) (.whole 1) = false :=
    decide_eq_false (Int.not_lt.mpr (Int.ofNat_le.mpr hn))
  unfold count
  rw [hlt]
  rfl

section Attempt

variable {b : Backoff} {total number more : Nat} {sleep : Number → Act σ Unit}
  {passes : FaultKind → Bool} {call : Act σ α} {h h' : Host σ} {a : α} {f : Fault}

/-- A call that is answered is not made again. -/
theorem attempt_answered (hcall : call h = (.ok a, h')) :
    b.attempt total sleep passes call number more h = (.ok a, h') := by
  cases more with
  | zero =>
      unfold attempt
      rw [Act.outcome_bind_apply, hcall]
      rfl
  | succ more =>
      unfold attempt
      rw [Act.outcome_bind_apply, hcall]
      rfl

/-- The last failure is the caller's, behind a report of it. -/
theorem attempt_last (hcall : call h = (.error f, h')) (hpasses : passes f.kind = true) :
    ∃ j, b.attempt total sleep passes call number 0 h = (.error f, { h' with journal := j }) := by
  unfold attempt
  rw [Act.outcome_bind_apply, hcall]
  dsimp only
  rw [if_pos hpasses]
  exact ⟨_, rfl⟩

/-- A report changes at most the journal. -/
theorem report_apply (total number : Nat) (f : Fault) (d : Number) (h : Host σ) :
    ∃ j, report total number f d h = (.ok (), { h with journal := j }) := by
  unfold report
  cases d.toBinary64? with
  | none => exact ⟨h.journal, rfl⟩
  | some seconds => exact ⟨_, rfl⟩

/-- A failure that is not the last one is reported, and after the delay the call is made again. -/
theorem attempt_paused {d : Number} (hcall : call h = (.error f, h'))
    (hpasses : passes f.kind = true) (hdelay : b.delay number = .ok d) :
    ∃ j, b.attempt total sleep passes call number (more + 1) h =
      (sleep d >>= fun _ => b.attempt total sleep passes call (number + 1) more)
        { h' with journal := j } := by
  rw [attempt, Act.outcome_bind_apply, hcall]
  dsimp only
  obtain ⟨j, hreport⟩ := report_apply total number f d h'
  rw [if_pos hpasses, hdelay, Act.bind_ok (Act.ofExcept_apply _ _), Act.bind_ok hreport]
  exact ⟨j, rfl⟩

/-- While the delay is sure to have a value, the call is made again. -/
theorem attempt_again (hcall : call h = (.error f, h')) (hpasses : passes f.kind = true)
    (hnumber : number ≤ 1024) :
    ∃ d j, b.delay number = .ok d ∧
      b.attempt total sleep passes call number (more + 1) h =
        (sleep d >>= fun _ => b.attempt total sleep passes call (number + 1) more)
          { h' with journal := j } := by
  obtain ⟨d, hd⟩ := b.delay_eq_ok number hnumber
  obtain ⟨j, hpaused⟩ := attempt_paused hcall hpasses hd
  exact ⟨d, j, hd, hpaused⟩

end Attempt

/-- From this host the call gives a good result after fewer than `n` failures, all of a kind
that passes, whatever is reported and however long the wait is between them. Nothing leads out
of the ground. -/
inductive ComesWithin (g : Ground σ) (sleep : Number → Act σ Unit) (passes : FaultKind → Bool)
    (call : Act σ α) (good : α → Prop) : Nat → Host σ → Prop
  | now {n : Nat} {h : Host σ} {a : α} (answered : (call h).1 = .ok a) (fits : good a)
      (held : g.holds (call h).2) : ComesWithin g sleep passes call good (n + 1) h
  | later {n : Nat} {h : Host σ} {f : Fault} (failed : (call h).1 = .error f)
      (passing : passes f.kind = true) (held : g.holds (call h).2)
      (again : ∀ (j : List Entry) (d : Number), ComesWithin g sleep passes call good n
        (sleep d { (call h).2 with journal := j }).2) :
      ComesWithin g sleep passes call good (n + 1) h

/-- On the ground every delay of the backoff comes to its end. -/
def Elapses (b : Backoff) (g : Ground σ) (sleep : Number → Act σ Unit) : Prop :=
  ∀ failures d, b.delay failures = .ok d → g.Answers (sleep d) (.ok ())

variable {g : Ground σ} {sleep : Number → Act σ Unit} {passes : FaultKind → Bool}
  {call : Act σ α} {good : α → Prop}

/-- With as many attempts left the loop ends with the good result. -/
theorem attempt_of_comesWithin {b : Backoff} (total : Nat) (hsleep : b.Elapses g sleep)
    {number more : Nat} {h : Host σ} (hmost : number + more ≤ 1025)
    (hc : ComesWithin g sleep passes call good (more + 1) h) :
    ∃ a, good a ∧ (b.attempt total sleep passes call number more h).1 = .ok a ∧
      g.holds (b.attempt total sleep passes call number more h).2 := by
  -- The predicate counts the attempts that are left; a failure hands on the host after its wait.
  induction more generalizing number h with
  | zero =>
      cases hc with
      | @now _ _ a answered fits held =>
          rw [attempt_answered (Prod.ext answered rfl)]
          exact ⟨a, fits, rfl, held⟩
      | later failed passing held again => cases again [] (.whole 0)
  | succ more ih =>
      cases hc with
      | @now _ _ a answered fits held =>
          rw [attempt_answered (Prod.ext answered rfl)]
          exact ⟨a, fits, rfl, held⟩
      | later failed passing held again =>
          have hnumber : number ≤ 1024 := by omega
          obtain ⟨d, j, hd, hstep⟩ := attempt_again (Prod.ext failed rfl) passing hnumber
          rw [hstep, Act.bind_ok (Prod.ext (hsleep number d hd _ (g.report j held)).1 rfl)]
          exact ih (by omega) (again j d)

theorem run_of_comesWithin {b : Backoff} (hsleep : b.Elapses g sleep) {n : Nat}
    {h : Host σ} (hattempts : b.attempts = .whole n) (hmost : n ≤ 1024)
    (hc : ComesWithin g sleep passes call good n h) :
    ∃ a, good a ∧ (b.run sleep passes call h).1 = .ok a ∧
      g.holds (b.run sleep passes call h).2 := by
  obtain ⟨more, rfl⟩ : ∃ more, n = more + 1 := by
    cases hc with
    | now _ _ _ => exact ⟨_, rfl⟩
    | later _ _ _ _ => exact ⟨_, rfl⟩
  unfold run
  rw [hattempts, count_whole (Nat.le_add_left 1 more), Act.bind_ok (Act.ofExcept_apply _ _)]
  exact attempt_of_comesWithin _ hsleep (by omega) hc

end Backoff

/-! ## One signature -/

/-- The response brings this signature, or says that there is none. -/
def Response.Brings (response : Response) : Option Bytes → Prop
  | some raw => 200 ≤ response.status ∧ response.status < 300 ∧ response.body = raw
  | none => response.status = 404

namespace Lookaside

variable {g : Ground σ} {store : Lookaside σ}

/-- On the ground every request to this address brings this signature, or the word that there
is none, after fewer failures of the way to the server than there are attempts. -/
def BringsAt (store : Lookaside σ) (g : Ground σ) (attempts : Nat) (url : Text)
    (found : Option Bytes) : Prop :=
  ∀ h, g.holds h → Backoff.ComesWithin g store.sleep (·.isA .transport) (store.get url)
    (·.Brings found) attempts h

theorem answers_fetch (hsleep : store.backoff.Elapses g store.sleep) {attempts : Nat}
    (hattempts : store.backoff.attempts = .whole attempts) (hmost : attempts ≤ 1024) {url : Text}
    {found : Option Bytes} (hurl : store.BringsAt g attempts url found) :
    g.Answers (store.fetch url) (.ok found) := by
  intro h hh
  obtain ⟨response, hbrings, hres, hheld⟩ :=
    Backoff.run_of_comesWithin hsleep hattempts hmost (hurl h hh)
  unfold fetch
  rw [Act.outcome_bind_apply, hres]
  dsimp only
  cases found with
  | none =>
      have hstatus : response.status = 404 := hbrings
      rw [if_pos hstatus]
      exact ⟨rfl, hheld⟩
  | some raw =>
      obtain ⟨hlow, hhigh, rfl⟩ := hbrings
      rw [if_neg (by omega), if_pos ⟨hlow, hhigh⟩]
      exact ⟨rfl, hheld⟩

/-! ## All signatures -/

/-- On the ground the server has these signatures of the manifest under their numbers, and
under the next number none. -/
structure Serves (store : Lookaside σ) (g : Ground σ) (r : Reference) (digest : Text)
    (raws : List Bytes) (attempts : Nat) : Prop where
  sleeps : store.backoff.Elapses g store.sleep
  brings : ∀ i : Nat, i ≤ raws.length → ∀ url, signatureUrl store.baseUrl r digest i = .ok url →
    store.BringsAt g attempts url raws[i]?

theorem signatureUrl_eq_ok {digest : Text} {parts : Text × Text}
    (hparts : digestParts digest = .ok parts) (baseUrl : Text) (r : Reference) (index : Int) :
    ∃ url, signatureUrl baseUrl r digest index = .ok url := by
  unfold signatureUrl
  rw [hparts]
  exact ⟨_, rfl⟩

section Listing

variable {r : Reference} {digest : Text} {raws : List Bytes} {attempts : Nat} {parts : Text × Text}

/-- From any number on all the signatures that are left are listed, if there are no more than
the store allows. -/
theorem answers_signaturesFrom (hs : store.Serves g r digest raws attempts)
    (hattempts : store.backoff.attempts = .whole attempts) (hmost : attempts ≤ 1024)
    (hparts : digestParts digest = .ok parts) (hcap : (raws.length : Int) ≤ store.maxSignatures)
    (fuel index : Nat) (hindex : index ≤ raws.length) (hfuel : raws.length < index + fuel) :
    g.Answers (store.signaturesFrom r digest index fuel) (.ok (raws.drop index)) := by
  induction fuel generalizing index with
  | zero => omega
  | succ fuel ih =>
      obtain ⟨url, hurl⟩ := signatureUrl_eq_ok hparts store.baseUrl r index
      have hfetch := answers_fetch hs.sleeps hattempts hmost (hs.brings index hindex url hurl)
      unfold signaturesFrom
      rw [hurl]
      refine (Ground.Answers.ofExcept _).bind ?_
      rcases Nat.lt_or_eq_of_le hindex with hlt | rfl
      · rw [List.getElem?_eq_getElem hlt] at hfetch
        rw [List.drop_eq_getElem_cons hlt]
        refine hfetch.bind ?_
        have hbelow : Int.ofNat index ≠ store.maxSignatures := by
          intro hsame
          rw [← hsame] at hcap
          exact absurd (Int.ofNat_le.mp hcap) (Nat.not_le.mpr hlt)
        simp only [if_neg hbelow]
        exact (ih (index + 1) hlt (by omega)).bind (.pure _)
      · rw [List.getElem?_eq_none (Nat.le_refl _)] at hfetch
        rw [List.drop_length]
        exact hfetch.bind (.pure _)

theorem answers_signatures (hs : store.Serves g r digest raws attempts)
    (hattempts : store.backoff.attempts = .whole attempts) (hmost : attempts ≤ 1024)
    (hparts : digestParts digest = .ok parts) (hcap : (raws.length : Int) ≤ store.maxSignatures) :
    g.Answers (store.signatures r digest) (.ok raws) := by
  have hlisted := answers_signaturesFrom hs hattempts hmost hparts hcap
    (store.maxSignatures.toNat + 1) 0 (Nat.zero_le _) (by omega)
  unfold signatures
  rw [if_neg (by omega)]
  exact hlisted.bind ((Ground.Answers.log _ _ _).bind (.pure _))

end Listing

end Lookaside

end ImageTrust
