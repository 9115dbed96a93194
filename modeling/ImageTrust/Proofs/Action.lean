/-
# Actions, one step at a time

What each building block of an action does to a host, as an equation.  A proof about an
action opens it once with these and then speaks of hosts only; nothing below the host is
ever unfolded.
-/
import ImageTrust.Host

namespace ImageTrust

variable {σ α β ε δ : Type}

/-! ## Results -/

namespace Result

theorem bind_eq_ok_iff {x : Except ε α} {f : α → Except ε β} {b : β} :
    (x >>= f) = .ok b ↔ ∃ a, x = .ok a ∧ f a = .ok b := by
  constructor
  · intro h
    cases x with
    | error e => cases h
    | ok a => exact ⟨a, rfl, h⟩
  · rintro ⟨a, rfl, h⟩
    exact h

@[simp] theorem mapError_ok (a : α) (f : ε → δ) :
    (Except.ok a : Except ε α).mapError f = .ok a := rfl

@[simp] theorem mapError_error (e : ε) (f : ε → δ) :
    (Except.error e : Except ε α).mapError f = .error (f e) := rfl

theorem mapError_eq_ok_iff {x : Except ε α} {f : ε → δ} {a : α} :
    x.mapError f = .ok a ↔ x = .ok a := by
  cases x with
  | error e => simp
  | ok b => simp

theorem mapError_eq_error_iff {x : Except ε α} {f : ε → δ} {d : δ} :
    x.mapError f = .error d ↔ ∃ e, x = .error e ∧ f e = d := by
  cases x with
  | error e => simp
  | ok b => simp

theorem map_eq_ok_iff {x : Except ε α} {f : α → β} {b : β} :
    x.map f = .ok b ↔ ∃ a, x = .ok a ∧ f a = b := by
  cases x with
  | error e => exact ⟨nofun, nofun⟩
  | ok a => simp [Except.map]

theorem map_eq_error_iff {x : Except ε α} {f : α → β} {e : ε} :
    x.map f = .error e ↔ x = .error e := by
  cases x with
  | error e' => simp [Except.map]
  | ok a => exact ⟨nofun, nofun⟩

theorem bind_eq_error_iff {x : Except ε α} {f : α → Except ε β} {e : ε} :
    (x >>= f) = .error e ↔ x = .error e ∨ ∃ a, x = .ok a ∧ f a = .error e := by
  cases x with
  | error e' => simp [bind, Except.bind]
  | ok a => simp [bind, Except.bind]

theorem ite_error_eq_ok_iff {p : Prop} [Decidable p] {e : ε} {x : Except ε α} {a : α} :
    (if p then .error e else x) = .ok a ↔ ¬ p ∧ x = .ok a := by
  by_cases hp : p
  · simp [hp]
  · simp [hp]

theorem toOption_eq_some_iff {x : Except ε α} {a : α} : x.toOption = some a ↔ x = .ok a := by
  cases x with
  | error e => exact ⟨nofun, nofun⟩
  | ok b => simp [Except.toOption]

end Result

/-! ## Hosts -/

/-- A host on which nothing has been done yet. -/
def Host.fresh (disk : Disk) (beyond : σ) : Host σ :=
  ⟨disk, fun _ => .ready, fun _ => KeyCache.empty, [], beyond⟩

/-- The host with one context in another stage. -/
def Host.moved (h : Host σ) (n : Nat) (s : Stage) : Host σ :=
  { h with stages := Act.replace h.stages n s }

/-! ## Actions -/

namespace Act

@[simp] theorem pure_apply (a : α) (h : Host σ) : (pure a : Act σ α) h = (.ok a, h) := rfl

theorem bind_apply (x : Act σ α) (f : α → Act σ β) (h : Host σ) :
    (x >>= f) h = match x h with
      | (.ok a, h) => f a h
      | (.error e, h) => (.error e, h) := rfl

theorem bind_ok {x : Act σ α} {h h' : Host σ} {a : α} (hx : x h = (.ok a, h'))
    (f : α → Act σ β) : (x >>= f) h = f a h' := by
  rw [bind_apply, hx]

theorem bind_error {x : Act σ α} {h h' : Host σ} {e : Fault} (hx : x h = (.error e, h'))
    (f : α → Act σ β) : (x >>= f) h = (.error e, h') := by
  rw [bind_apply, hx]

@[simp] theorem pure_bind (a : α) (f : α → Act σ β) : (pure a : Act σ α) >>= f = f a := rfl

@[simp] theorem fail_apply (f : Fault) (h : Host σ) : (fail f : Act σ α) h = (.error f, h) := rfl

@[simp] theorem outcome_apply (x : Act σ α) (h : Host σ) :
    outcome x h = (.ok (x h).1, (x h).2) := rfl

theorem outcome_bind_apply (x : Act σ α) (f : Except Fault α → Act σ β) (h : Host σ) :
    (outcome x >>= f) h = f (x h).1 (x h).2 := rfl

@[simp] theorem ofExcept_apply (e : Except Fault α) (h : Host σ) : ofExcept e h = (e, h) := rfl

@[simp] theorem host_apply (h : Host σ) : (host : Act σ (Host σ)) h = (.ok h, h) := rfl

@[simp] theorem modify_apply (f : Host σ → Host σ) (h : Host σ) : modify f h = (.ok (), f h) := rfl

@[simp] theorem log_apply (level : Level) (channel : Channel) (parts : List Text) (h : Host σ) :
    (log level channel parts : Act σ Unit) h =
      (.ok (), { h with journal := h.journal ++ [⟨level, channel, Text.sentence parts⟩] }) := rfl

/-- An action that goes on after a change of the disk goes on with the new disk. -/
theorem changeDisk_bind_eq_ok {f : Disk → Except Disk.Failure Disk} {x : Act σ α} {h : Host σ} {a : α}
    (hok : ((changeDisk f >>= fun _ => x) h).1 = .ok a) :
    ∃ d, f h.disk = .ok d ∧ (changeDisk f >>= fun _ => x) h = x { h with disk := d } := by
  cases hd : f h.disk with
  | ok d =>
      have hchange : changeDisk f h = (.ok (), { h with disk := d }) := by
        unfold changeDisk
        rw [hd]
      exact ⟨d, rfl, bind_ok hchange _⟩
  | error why =>
      have hchange : changeDisk f h = (.error (.disk why), h) := by
        unfold changeDisk
        rw [hd]
      rw [bind_error hchange] at hok
      cases hok

@[simp] theorem stage_apply (n : Nat) (h : Host σ) : stage n h = (.ok (h.stages n), h) := rfl

@[simp] theorem setStage_apply (n : Nat) (s : Stage) (h : Host σ) :
    setStage n s h = (.ok (), h.moved n s) := rfl

@[simp] theorem setCache_apply (n : Nat) (k : KeyCache) (h : Host σ) :
    setCache n k h = (.ok (), { h with caches := replace h.caches n k }) := rfl

@[simp] theorem replace_self {γ : Type} (f : Nat → γ) (n : Nat) (c : γ) : replace f n c n = c :=
  if_pos rfl

theorem replace_other {γ : Type} (f : Nat → γ) {n m : Nat} (c : γ) (hm : m ≠ n) :
    replace f n c m = f m := if_neg hm

@[simp] theorem replace_eq_self {γ : Type} (f : Nat → γ) (n : Nat) : replace f n (f n) = f := by
  funext m
  by_cases hm : m = n
  · rw [hm, replace_self]
  · rw [replace_other _ _ hm]

end Act

namespace Host

@[simp] theorem moved_disk (h : Host σ) (n : Nat) (s : Stage) : (h.moved n s).disk = h.disk := rfl

@[simp] theorem moved_stage (h : Host σ) (n : Nat) (s : Stage) : (h.moved n s).stages n = s :=
  Act.replace_self _ _ _

end Host

end ImageTrust
