/-
# Checks — when a datum is taken

A check tells everything that is wrong with a document, and most of what it is made of is there
to find the places of problems.  None of that matters once a check comes to a value: then every
part came to its value, whatever its place, and that is an equation (`all_eq_ok_iff`,
`items_eq_ok_iff`).  What is taken from a JSON object is taken from one of its members, and what
is collected under names comes out once under each.
-/
import ImageTrust.Datum.Check
import ImageTrust.Proofs.Action

namespace ImageTrust

variable {α β : Type}

/-! ## Checks that come to a value -/

namespace Checked

theorem within_eq_ok_iff {step : Step} {c : Checked α} {a : α} :
    c.within step = .ok a ↔ c = .ok a := Result.mapError_eq_ok_iff

theorem map_eq_ok_iff {c : Checked α} {f : α → β} {b : β} :
    c.map f = .ok b ↔ ∃ a, c = .ok a ∧ f a = b := Result.map_eq_ok_iff

theorem both_eq_ok_iff {c : Checked α} {e : Checked β} {a : α} {b : β} :
    both c e = .ok (a, b) ↔ c = .ok a ∧ e = .ok b := by
  cases c <;> cases e <;> simp [both]

theorem all_cons_eq_ok_iff {c : Checked α} {cs : List (Checked α)} {as : List α} :
    all (c :: cs) = .ok as ↔ ∃ a more, c = .ok a ∧ all cs = .ok more ∧ as = a :: more := by
  rw [all]
  cases c with
  | error problems => cases all cs <;> exact ⟨nofun, nofun⟩
  | ok a =>
      cases all cs with
      | error problems => exact ⟨nofun, nofun⟩
      | ok more =>
          constructor
          · intro h
            exact ⟨a, more, rfl, rfl, (Except.ok.inj h).symm⟩
          · rintro ⟨b, others, hb, hothers, rfl⟩
            cases hb
            cases hothers
            rfl

theorem all_eq_ok_iff {cs : List (Checked α)} {as : List α} :
    all cs = .ok as ↔ cs = as.map .ok := by
  induction cs generalizing as with
  | nil =>
      cases as with
      | nil => exact ⟨fun _ => rfl, fun _ => rfl⟩
      | cons a as => exact ⟨nofun, nofun⟩
  | cons c cs ih =>
      rw [all_cons_eq_ok_iff]
      constructor
      · rintro ⟨a, more, rfl, hmore, rfl⟩
        rw [ih.mp hmore, List.map_cons]
      · intro h
        cases as with
        | nil => cases h
        | cons a as =>
            obtain ⟨hc, hcs⟩ := List.cons.inj h
            exact ⟨a, as, hc, ih.mpr hcs, rfl⟩

/-- The place of an item matters for problems only. -/
theorem items_eq_ok_iff {check : Datum → Checked α} {ds : List Datum} {as : List α} :
    items check ds = .ok as ↔ ds.map check = as.map .ok := by
  have hplaces : ∀ (i : Nat) (ds : List Datum) (as : List α),
      (ds.zipIdx i).map (fun x => within (.index x.2) (check x.1)) = as.map .ok ↔
        ds.map check = as.map .ok := by
    intro i ds as
    induction ds generalizing i as with
    | nil => exact Iff.rfl
    | cons d ds ih =>
        cases as with
        | nil => exact ⟨nofun, nofun⟩
        | cons a as =>
            rw [List.zipIdx_cons, List.map_cons, List.map_cons, List.map_cons, List.cons.injEq,
              List.cons.injEq, ih, within_eq_ok_iff]
  rw [items, all_eq_ok_iff]
  exact hplaces 0 ds as

end Checked

/-! ## Members of a JSON object -/

namespace Datum

theorem ofItems_eq_map (items : List Json) : ofItems items = items.map ofJson := by
  induction items with
  | nil => rfl
  | cons v rest ih => rw [ofItems, ih, List.map_cons]

theorem ofMembers_eq_map (members : List (Text × Json)) :
    ofMembers members = members.map fun e => (.text e.1, ofJson e.2) := by
  induction members with
  | nil => rfl
  | cons e rest ih => rw [ofMembers, ih, List.map_cons]

variable {members : List (Text × Json)} {name other spelling : Text} {d : Datum} {a value : α}
  {check : Datum → Checked α}

theorem checkText_ofJson_eq_ok_iff {v : Json} {t : Text} :
    checkText (.ofJson v) = .ok t ↔ v = .text t := by
  cases v <;> simp [checkText, ofJson, Checked.fail]

/-- What may be absent and is there was checked. -/
theorem of_checkOptional {v : Json} (h : checkOptional check (.ofJson v) = .ok (some a)) :
    check (.ofJson v) = .ok a := by
  cases v with
  | null => cases h
  | _ =>
      obtain ⟨b, hb, hsome⟩ := Result.map_eq_ok_iff.mp h
      cases hsome
      exact hb

theorem mem_of_find? (h : find? name (ofMembers members) = some d) :
    ∃ e ∈ members, d = .ofJson e.2 := by
  induction members with
  | nil => cases h
  | cons e rest ih =>
      obtain ⟨n, v⟩ := e
      rw [ofMembers, find?] at h
      split at h
      · cases h
        exact ⟨(n, v), List.mem_cons_self, rfl⟩
      · obtain ⟨e, he, hd⟩ := ih h
        exact ⟨e, List.mem_cons_of_mem _ he, hd⟩

theorem mem_of_member? (h : member? name other (ofMembers members) = some (spelling, d)) :
    ∃ e ∈ members, d = .ofJson e.2 := by
  unfold member? at h
  cases hfirst : find? name (ofMembers members) with
  | some found =>
      rw [hfirst] at h
      cases h
      exact mem_of_find? hfirst
  | none =>
      rw [hfirst] at h
      obtain ⟨found, hsecond, hpair⟩ := Option.map_eq_some_iff.mp h
      cases hpair
      exact mem_of_find? hsecond

theorem mem_of_checkMember (h : checkMember name other check (ofMembers members) = .ok a) :
    ∃ e ∈ members, check (.ofJson e.2) = .ok a := by
  unfold checkMember at h
  cases hmember : member? name other (ofMembers members) with
  | none =>
      rw [hmember] at h
      cases h
  | some found =>
      obtain ⟨spelling, d⟩ := found
      rw [hmember] at h
      obtain ⟨e, he, rfl⟩ := mem_of_member? hmember
      exact ⟨e, he, Checked.within_eq_ok_iff.mp h⟩

theorem mem_of_checkDefaulted
    (h : checkDefaulted name other value check (ofMembers members) = .ok a) :
    a = value ∨ ∃ e ∈ members, check (.ofJson e.2) = .ok a := by
  unfold checkDefaulted at h
  cases hmember : member? name other (ofMembers members) with
  | none =>
      rw [hmember] at h
      cases h
      exact .inl rfl
  | some found =>
      obtain ⟨spelling, d⟩ := found
      rw [hmember] at h
      obtain ⟨e, he, rfl⟩ := mem_of_member? hmember
      exact .inr ⟨e, he, Checked.within_eq_ok_iff.mp h⟩

end Datum

/-! ## Members, and scopes that are collected -/

namespace Json

variable {members : List (Text × α)} {name : Text} {v : α} {e : Text × α}

/-- A member of a document is one of those that the object has. -/
theorem exists_mem_of_member? {v w : Json} (h : v.member? name = some w) :
    ∃ members, v = .object members ∧ (name, w) ∈ members := by
  cases v with
  | object members =>
      obtain ⟨before, after, hmembers, -⟩ := List.lookup_eq_some_iff.mp h
      exact ⟨members, rfl, hmembers ▸ List.mem_append_right _ List.mem_cons_self⟩
  | _ => cases h

theorem mem_of_mem_insertMember (h : e ∈ insertMember name v members) :
    e = (name, v) ∨ e ∈ members := by
  induction members with
  | nil => exact .inl (List.mem_singleton.mp h)
  | cons first rest ih =>
      obtain ⟨n, w⟩ := first
      rw [insertMember] at h
      split at h
      · rename_i hn
        rcases List.mem_cons.mp h with rfl | hrest
        · exact .inl (by rw [hn])
        · exact .inr (List.mem_cons_of_mem _ hrest)
      · rcases List.mem_cons.mp h with rfl | hrest
        · exact .inr List.mem_cons_self
        · exact (ih hrest).imp_right (List.mem_cons_of_mem _)

theorem nodup_insertMember (h : (members.map Prod.fst).Nodup) :
    ((insertMember name v members).map Prod.fst).Nodup := by
  induction members with
  | nil => exact List.nodup_cons.mpr ⟨List.not_mem_nil, List.nodup_nil⟩
  | cons first rest ih =>
      obtain ⟨n, w⟩ := first
      rw [List.map_cons, List.nodup_cons] at h
      rw [insertMember]
      split
      · exact List.nodup_cons.mpr h
      · rename_i hn
        refine List.nodup_cons.mpr ⟨fun hmem => ?_, ih h.2⟩
        obtain ⟨e, he, hname⟩ := List.mem_map.mp hmem
        rcases mem_of_mem_insertMember he with rfl | hrest
        · exact hn hname.symm
        · exact h.1 (List.mem_map.mpr ⟨e, hrest, hname⟩)

/-- However often a name occurs, it is collected once. -/
theorem nodup_collect (members : List (Text × α)) : ((collect members).map Prod.fst).Nodup := by
  have hgeneral : ∀ done : List (Text × α), (done.map Prod.fst).Nodup →
      ((members.foldl (fun done e => insertMember e.1 e.2 done) done).map Prod.fst).Nodup := by
    induction members with
    | nil => exact fun _ hdone => hdone
    | cons e rest ih => exact fun done hdone => ih _ (nodup_insertMember hdone)
  exact hgeneral [] List.nodup_nil

theorem mem_of_mem_collect (h : e ∈ collect members) : e ∈ members := by
  have hgeneral : ∀ done : List (Text × α),
      e ∈ members.foldl (fun done e => insertMember e.1 e.2 done) done →
        e ∈ done ∨ e ∈ members := by
    clear h
    induction members with
    | nil => exact fun _ he => .inl he
    | cons first rest ih =>
        intro done he
        rcases ih _ he with hinserted | hrest
        · rcases mem_of_mem_insertMember hinserted with rfl | hdone
          · exact .inr List.mem_cons_self
          · exact .inl hdone
        · exact .inr (List.mem_cons_of_mem _ hrest)
  rcases hgeneral [] h with hnil | hmem
  · cases hnil
  · exact hmem

end Json

end ImageTrust
