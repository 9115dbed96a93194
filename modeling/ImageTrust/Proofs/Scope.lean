/-
# The longest scope decides

Which list of a policy governs an image, said without the search that finds it.  A
reference lies in a scope if the scope is the reference in full, its repository, or what
stands before some slash of the repository; of the scopes that the policy knows and the
reference lies in, the longest governs, and the default governs where there is none.

The search walks the identity and then the namespaces and takes the first hit.  So the
walk has to meet every scope that the reference lies in (`mem_walk`), the longer before
the shorter (`walk_pairwise`); the rest is a fact about first hits in such a list.
-/
import ImageTrust.Context
import ImageTrust.Proofs.Action

namespace ImageTrust

namespace Reference

/-! ## The scopes around a reference -/

/-- The scope is the reference in full, its repository, or encloses the repository at a
slash. -/
def LiesIn (r : Reference) (scope : Text) : Prop :=
  scope = r.shown ∨ scope = r.name ∨ scope ++ [CodePoint.ofChar '/'] <+: r.name

theorem mem_enclosing {t scope : Text} :
    scope ∈ enclosing t ↔ scope ++ [CodePoint.ofChar '/'] <+: t := by
  induction t generalizing scope with
  | nil => simp [enclosing]
  | cons c t ih =>
      cases scope with
      | nil =>
          by_cases hc : c = CodePoint.ofChar '/'
          · simp [enclosing, hc]
          · have : CodePoint.ofChar '/' ≠ c := fun h => hc h.symm
            simp [enclosing, hc, this]
      | cons d scope =>
          have hmap : d :: scope ∈ (enclosing t).map (c :: ·) ↔ d = c ∧ scope ∈ enclosing t := by
            simp only [List.mem_map, List.cons.injEq]
            constructor
            · rintro ⟨s, hs, rfl, rfl⟩; exact ⟨rfl, hs⟩
            · rintro ⟨rfl, hs⟩; exact ⟨scope, hs, rfl, rfl⟩
          rw [List.cons_append, List.cons_prefix_cons, ← ih, ← hmap]
          by_cases hc : c = CodePoint.ofChar '/' <;> simp [enclosing, hc]

theorem length_lt_of_mem_enclosing {t scope : Text} (h : scope ∈ enclosing t) :
    scope.length < t.length := by
  have hle := (mem_enclosing.mp h).length_le
  rw [List.length_append] at hle
  exact hle

theorem enclosing_pairwise (t : Text) :
    (enclosing t).Pairwise fun a b => a.length < b.length := by
  induction t with
  | nil => exact .nil
  | cons c t ih =>
      have hlonger : ((enclosing t).map (c :: ·)).Pairwise fun a b => a.length < b.length :=
        ih.map _ fun a b h => by simpa using h
      by_cases hc : c = CodePoint.ofChar '/'
      · simp only [enclosing, if_pos hc]
        refine .cons (fun s hs => ?_) hlonger
        obtain ⟨s, -, rfl⟩ := List.mem_map.mp hs
        simp
      · simpa only [enclosing, if_neg hc] using hlonger

/-- Where the search for a governing list looks, in its order. -/
def walk (r : Reference) : List Text := r.shown :: r.namespaces

theorem mem_walk {r : Reference} {scope : Text} : scope ∈ r.walk ↔ r.LiesIn scope := by
  simp [walk, namespaces, LiesIn, mem_enclosing]

/-- What picks a version makes a reference longer than its repository. -/
theorem name_length_lt_shown {r : Reference} (h : r.isNameOnly = false) :
    r.name.length < r.shown.length := by
  cases ht : r.tag <;> cases hd : r.digest <;>
    simp [isNameOnly, shown, suffix, ht, hd] at h ⊢

theorem walk_pairwise {r : Reference} (h : r.isNameOnly = false) :
    r.walk.Pairwise fun a b => b.length < a.length := by
  have hinner : ∀ scope ∈ (enclosing r.name).reverse, scope.length < r.name.length :=
    fun scope hs => length_lt_of_mem_enclosing (List.mem_reverse.mp hs)
  refine .cons (fun scope hs => ?_) (.cons hinner ?_)
  · rcases List.mem_cons.mp hs with rfl | hs
    · exact name_length_lt_shown h
    · exact Nat.lt_trans (hinner scope hs) (name_length_lt_shown h)
  · exact List.pairwise_reverse.mpr (enclosing_pairwise r.name)

/-- A beginning of the repository that ends inside of a component is no scope around it. -/
theorem not_liesIn_of_textual_prefix {r : Reference} (h : r.isNameOnly = false) {scope : Text}
    (hp : scope <+: r.name) (hn : scope ≠ r.name)
    (hs : ¬ scope ++ [CodePoint.ofChar '/'] <+: r.name) : ¬ r.LiesIn scope := by
  rintro (rfl | rfl | hslash)
  · have := hp.length_le
    have := name_length_lt_shown h
    omega
  · exact hn rfl
  · exact hs hslash

end Reference

/-! ## First hits in a list that gets shorter -/

theorem shorter_of_find? {ts : List Text} {p : Text → Bool} {first t : Text}
    (hts : ts.Pairwise fun a b => b.length < a.length) (hfirst : ts.find? p = some first)
    (hmem : t ∈ ts) (ht : p t) (hne : t ≠ first) : t.length < first.length := by
  obtain ⟨-, before, after, rfl, hbefore⟩ := List.find?_eq_some_iff_append.mp hfirst
  -- `t` cannot stand before the first hit, so it is behind it.
  rcases List.mem_append.mp hmem with hb | ha
  · have hnot := hbefore t hb
    simp [ht] at hnot
  · rcases List.mem_cons.mp ha with rfl | ha
    · exact absurd rfl hne
    · exact (List.pairwise_cons.mp (List.pairwise_append.mp hts).2.1).1 t ha

namespace Policy

/-- The scopes that a policy has a list for. -/
def scopes (p : Policy) : List Text := p.specific.map Prod.fst

/-- The longest scope of a policy that a reference lies in. -/
structure Nearest (p : Policy) (r : Reference) (scope : Text) : Prop where
  known : scope ∈ p.scopes
  around : r.LiesIn scope
  longest : ∀ other ∈ p.scopes, r.LiesIn other → other ≠ scope → other.length < scope.length

theorem isSome_lookup_iff {p : Policy} {scope : Text} :
    (p.specific.lookup scope).isSome ↔ scope ∈ p.scopes := by
  simp [scopes, List.lookup_isSome_iff]

/-- The list for the scope is the first that the search of a reference's scopes meets. -/
def FirstHit (p : Policy) (r : Reference) (scope : Text) : Prop :=
  r.walk.find? (fun s => (p.specific.lookup s).isSome) = some scope

theorem exists_firstHit {p : Policy} {r : Reference} {scope : Text} (hknown : scope ∈ p.scopes)
    (haround : r.LiesIn scope) : ∃ first, p.FirstHit r first := by
  have hfound : (r.walk.find? fun s => (p.specific.lookup s).isSome).isSome :=
    List.find?_isSome.mpr ⟨scope, Reference.mem_walk.mpr haround, isSome_lookup_iff.mpr hknown⟩
  exact Option.isSome_iff_exists.mp hfound

theorem FirstHit.nearest {p : Policy} {r : Reference} {first : Text}
    (hr : r.isNameOnly = false) (h : p.FirstHit r first) : p.Nearest r first where
  known := isSome_lookup_iff.mp (List.find?_some (p := fun s => (p.specific.lookup s).isSome) h)
  around := Reference.mem_walk.mp (List.mem_of_find?_eq_some h)
  longest := fun _ hknown haround hne =>
    shorter_of_find? (Reference.walk_pairwise hr) h (Reference.mem_walk.mpr haround)
      (isSome_lookup_iff.mpr hknown) hne

theorem Nearest.unique {p : Policy} {r : Reference} {s t : Text} (hs : p.Nearest r s)
    (ht : p.Nearest r t) : s = t := by
  by_cases hne : s = t
  · exact hne
  · have h₁ := ht.longest s hs.known hs.around hne
    have h₂ := hs.longest t ht.known ht.around (fun h => hne h.symm)
    omega

/-- Scopes that a reference lies in differ in length, so the longest of some is one scope. -/
theorem exists_nearest {p : Policy} {r : Reference} (hr : r.isNameOnly = false)
    (h : ∃ scope ∈ p.scopes, r.LiesIn scope) : ∃ scope, p.Nearest r scope := by
  obtain ⟨scope, hknown, haround⟩ := h
  obtain ⟨first, hfirst⟩ := exists_firstHit hknown haround
  exact ⟨first, hfirst.nearest hr⟩

theorem sectionFor_of_nearest {p : Policy} {r : Reference} {scope : Text}
    (hr : r.isNameOnly = false) (h : p.Nearest r scope) :
    p.sectionFor r.shown r.namespaces = .specific scope := by
  obtain ⟨first, hfirst⟩ := exists_firstHit h.known h.around
  have hsame : first = scope := (hfirst.nearest hr).unique h
  unfold FirstHit Reference.walk at hfirst
  rw [sectionFor, hfirst, hsame]

theorem sectionFor_of_none {p : Policy} {r : Reference}
    (h : ∀ scope ∈ p.scopes, ¬ r.LiesIn scope) :
    p.sectionFor r.shown r.namespaces = .default := by
  have hfind : r.walk.find? (fun s => (p.specific.lookup s).isSome) = none :=
    List.find?_eq_none.mpr fun scope hin hp =>
      h scope (isSome_lookup_iff.mp hp) (Reference.mem_walk.mp hin)
  unfold Reference.walk at hfind
  rw [sectionFor, hfind]

variable {σ : Type}

/-- Looking a scope up only reports, and always the same. -/
theorem resolve_reports (p : Policy) {identity : Text} (hid : identity ≠ [])
    (namespaces : List Text) :
    ∃ report : List Entry, ∀ h : Host σ, p.resolve identity namespaces h =
      (.ok (p.sectionFor identity namespaces), { h with journal := h.journal ++ report }) := by
  simp only [resolve, if_neg hid]
  cases hs : p.sectionFor identity namespaces with
  | default => exact ⟨_, fun _ => rfl⟩
  | specific scope =>
      by_cases hsame : scope = identity
      · simp only [if_pos hsame]
        exact ⟨_, fun _ => rfl⟩
      · simp only [if_neg hsame]
        exact ⟨_, fun _ => rfl⟩

theorem resolve_apply (p : Policy) {identity : Text} (hid : identity ≠ [])
    (namespaces : List Text) (h : Host σ) :
    ∃ report : List Entry, p.resolve identity namespaces h =
      (.ok (p.sectionFor identity namespaces), { h with journal := h.journal ++ report }) := by
  obtain ⟨report, hall⟩ := p.resolve_reports (σ := σ) hid namespaces
  exact ⟨report, hall h⟩

end Policy

/-! ## Addresses -/

namespace Address

/-- An address that holds a reference holds it with a tag or a digest, and not with both. -/
theorem eq_of_ofReference {r : Reference} {a : Address} (h : ofReference (some r) = .ok a) :
    a = ⟨some r⟩ ∧ r.isNameOnly = false ∧ r.identity = .ok r.shown := by
  cases ht : r.tag <;> cases hd : r.digest <;>
    simp [ofReference, Reference.isNameOnly, Reference.identity, Reference.shown,
      Reference.suffix, ht, hd] at h ⊢
  all_goals exact h.symm

end Address

namespace Context

variable {σ : Type}

theorem sectionOf_address (c : Context σ) {r : Reference} {a : Address}
    (ha : Address.ofReference (some r) = .ok a) (h : Host σ) :
    ∃ report : List Entry, c.sectionOf a.toImageReference h =
      (.ok (c.policy.sectionFor r.shown r.namespaces),
        { h with journal := h.journal ++ report }) := by
  obtain ⟨rfl, -, hid⟩ := Address.eq_of_ofReference ha
  have hne : r.shown ≠ [] := by simp [Reference.shown, Reference.name]
  obtain ⟨report, hres⟩ := c.policy.resolve_apply hne r.namespaces h
  refine ⟨report, ?_⟩
  rw [← hres]
  simp [sectionOf, Address.toImageReference, Address.identity, Address.namespaces, hid, Act.lift,
    Act.bind_apply, hne]

/-- The requirements for an image that holds a reference are those of the longest scope of the
policy that the reference lies in, be they none, and the default ones where it lies in no
scope; finding them fails for no reference and only reports.  An image without a reference has
none, whatever its scopes and the policy are. -/
theorem requirementsOf_longest_scope (c : Context σ) (h : Host σ) :
    (∀ r a, Address.ofReference (some r) = .ok a →
      ∃ (rs : List Requirement) (report : List Entry),
        c.requirementsOf a.toImageReference h =
          (.ok rs, { h with journal := h.journal ++ report }) ∧
        (∀ scope, c.policy.Nearest r scope → c.policy.specific.lookup scope = some rs) ∧
        ((∃ scope ∈ c.policy.scopes, r.LiesIn scope) → ∃ scope, c.policy.Nearest r scope) ∧
        ((∀ scope ∈ c.policy.scopes, ¬ r.LiesIn scope) → rs = c.policy.default) ∧
        ∀ scope, scope <+: r.name → scope ≠ r.name →
          ¬ scope ++ [CodePoint.ofChar '/'] <+: r.name → ¬ r.LiesIn scope) ∧
    ∀ a, Address.ofReference none = .ok a → ∀ namespaces : Act σ (List Text),
      c.requirementsOf { a.toImageReference with namespaces := namespaces } h =
        (.error (.unreferenced a.shown), h) ∧
      (Fault.unreferenced a.shown).kind = .policyConfiguration := by
  constructor
  · intro r a ha
    obtain ⟨-, hr, -⟩ := Address.eq_of_ofReference ha
    obtain ⟨report, hsection⟩ := c.sectionOf_address ha h
    refine ⟨c.policy.requirements (c.policy.sectionFor r.shown r.namespaces), report, ?_, ?_,
      Policy.exists_nearest hr, ?_, fun scope => Reference.not_liesIn_of_textual_prefix hr⟩
    · rw [requirementsOf, Act.bind_ok hsection, Act.pure_apply]
    · intro scope hscope
      rw [Policy.sectionFor_of_nearest hr hscope]
      obtain ⟨rs, hrs⟩ := Option.isSome_iff_exists.mp (Policy.isSome_lookup_iff.mpr hscope.known)
      simp [Policy.requirements, hrs]
    · intro hnone
      rw [Policy.sectionFor_of_none hnone]
      rfl
  · rintro a ha namespaces
    cases ha
    exact ⟨rfl, rfl⟩

/-- A scope without requirements decides before the longer list of an outer scope. -/
theorem requirementsOf_empty_scope :
    Address.ofReference (some ⟨"deep.com", "n1/repo", some "v1", none⟩) =
        .ok ⟨some ⟨"deep.com", "n1/repo", some "v1", none⟩⟩ ∧
      ∃ report : List Entry,
        (⟨0, ⟨[.reject], [("deep.com", [.insecureAcceptAnything]), ("deep.com/n1", [])]⟩,
            ⟨Verifier.ed25519 .standard 0, none⟩⟩ : Context Unit).requirementsOf
          (Address.toImageReference ⟨some ⟨"deep.com", "n1/repo", some "v1", none⟩⟩)
          (Host.fresh Disk.empty ()) =
        (.ok [], { Host.fresh Disk.empty () with journal := report }) := by
  refine ⟨rfl, ?_⟩
  obtain ⟨rs, report, hrs, hnearest, -⟩ :=
    (requirementsOf_longest_scope (σ := Unit)
      ⟨0, ⟨[.reject], [("deep.com", [.insecureAcceptAnything]), ("deep.com/n1", [])]⟩,
        ⟨Verifier.ed25519 .standard 0, none⟩⟩ (Host.fresh Disk.empty ())).1
      ⟨"deep.com", "n1/repo", some "v1", none⟩ _ rfl
  have hdeep := hnearest "deep.com/n1"
    ⟨by decide, .inr (.inr (by decide)), fun other hother _ hne => by
      simp [Policy.scopes] at hother
      rcases hother with rfl | rfl
      · decide
      · exact absurd rfl hne⟩
  obtain rfl : [] = rs := Option.some.inj ((by decide : _ = some []).symm.trans hdeep)
  exact ⟨report, hrs⟩

end Context

end ImageTrust
