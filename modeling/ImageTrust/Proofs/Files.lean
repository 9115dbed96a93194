/-
# Files — what changing one of them leaves alone

A path is followed from directory to directory, and only directories are gone through.  So
where a file is put, replaced or removed, every way that led on from there led nowhere before
and leads nowhere after, and every other way is what it was (`Disk.DifferAt.follow`).

For the files of one directory that makes each of them a cell of its own: writing or removing
one decides what is read under its name, and what exists and what is read under any other name
of the directory stays as it was (`Disk.write_child`, `Disk.unlink_child`).
-/
import ImageTrust.Proofs.Action

namespace ImageTrust

/-! ## Entries by name -/

namespace Entries

variable {κ α : Type} [BEq κ] [LawfulBEq κ] [DecidableEq κ]

theorem lookup_cons (other n : κ) (w : α) (rest : List (κ × α)) :
    List.lookup other ((n, w) :: rest) = if other = n then some w else rest.lookup other := by
  rw [List.lookup_cons]
  by_cases ho : other = n
  · rw [beq_iff_eq.mpr ho, if_pos ho]
  · rw [beq_eq_false_iff_ne.mpr ho, if_neg ho]

theorem lookup_filter_ne (name other : κ) (entries : List (κ × α)) :
    (entries.filter fun entry => entry.1 ≠ name).lookup other =
      if other = name then none else entries.lookup other := by
  induction entries with
  | nil => exact (ite_self none).symm
  | cons e rest ih =>
      obtain ⟨n, w⟩ := e
      by_cases hn : n = name
      · rw [List.filter_cons_of_neg (by simpa using hn), ih, lookup_cons, hn]
        by_cases ho : other = name
        · rw [if_pos ho, if_pos ho]
        · rw [if_neg ho, if_neg ho, if_neg ho]
      · rw [List.filter_cons_of_pos (by simpa using hn), lookup_cons, lookup_cons, ih]
        by_cases ho : other = n
        · rw [if_pos ho, if_pos ho, if_neg (ho ▸ hn)]
        · rw [if_neg ho, if_neg ho]

end Entries

namespace Disk

variable {d d' : Disk} {path root : Path} {p q : Place} {name other : Text} {names : List Text}

/-! ## What exists -/

theorem exists_eq_true_iff :
    d.exists? path = .ok true ↔ ∃ p, d.locate path = .ok p ∧ (d.node? p).isSome := by
  unfold exists?
  cases hp : d.locate path with
  | ok p => simp
  | error why => cases why with
    | zeroByte => simp
    | surrogate path => simp
    | system reason path => cases reason <;> simp

theorem exists_of_read {content : Bytes} (h : d.read path = .ok content) :
    d.exists? path = .ok true := by
  obtain ⟨p, hp, hnode⟩ := Result.bind_eq_ok_iff.mp h
  refine exists_eq_true_iff.mpr ⟨p, hp, ?_⟩
  cases hnone : d.node? p with
  | none =>
      rw [hnone] at hnode
      cases hnode
  | some node => rfl

/-! ## Following names -/

theorem follow_cons_eq_ok_iff :
    d.follow p (name :: names) = .ok q ↔
      d.node? p = some .directory ∧ ¬ maxNameBytes < name.utf8Bytes.length ∧
        d.follow (p.next name) names = .ok q := by
  rw [follow]
  cases d.node? p with
  | none => simp
  | some node => cases node <;> simp [Result.ite_error_eq_ok_iff]

theorem follow_append (d : Disk) (p : Place) (names more : List Text) :
    d.follow p (names ++ more) = d.follow p names >>= fun q => d.follow q more := by
  induction names generalizing p with
  | nil => rfl
  | cons name names ih =>
      simp only [List.cons_append, follow]
      cases d.node? p with
      | none => rfl
      | some node => cases node with
        | file content => rfl
        | sealedFile => rfl
        | sealedDirectory => rfl
        | directory =>
            dsimp only
            by_cases hlong : maxNameBytes < name.utf8Bytes.length
            · rw [if_pos hlong, if_pos hlong]
              rfl
            · rw [if_neg hlong, if_neg hlong]
              exact ih _

theorem follow_of_locate (h : d.locate path = .ok p) :
    d.follow (d.start path) path.names = .ok p := by
  unfold locate at h
  obtain ⟨-, h⟩ := Result.ite_error_eq_ok_iff.mp h
  obtain ⟨-, h⟩ := Result.ite_error_eq_ok_iff.mp h
  obtain ⟨-, h⟩ := Result.ite_error_eq_ok_iff.mp h
  exact Result.mapError_eq_ok_iff.mp h

theorem locate_congr
    (h : d'.follow (d'.start path) path.names = d.follow (d.start path) path.names) :
    d'.locate path = d.locate path := by
  unfold locate
  dsimp only
  rw [h]

/-! ## Entries of one directory -/

/-- The path leads to a directory, which is in this place. -/
structure Leads (d : Disk) (root : Path) (q : Place) : Prop where
  followed : d.follow (d.start root) root.names = .ok q
  directory : d.node? q = some .directory

theorem leads_of_locate (h : d.locate (root.child name) = .ok p) :
    ∃ q, d.Leads root q ∧ p = q.next name := by
  have hfollow : d.follow (d.start root) (root.names ++ [name]) = .ok p := follow_of_locate h
  rw [follow_append] at hfollow
  obtain ⟨q, hq, hlast⟩ := Result.bind_eq_ok_iff.mp hfollow
  obtain ⟨hdirectory, -, hp⟩ := follow_cons_eq_ok_iff.mp hlast
  exact ⟨q, ⟨hq, hdirectory⟩, (Except.ok.inj hp).symm⟩

theorem Leads.locate_eq (h : d.Leads root q) (h' : d'.Leads root q) (name : Text) :
    d'.locate (root.child name) = d.locate (root.child name) := by
  refine locate_congr ?_
  show d'.follow (d'.start root) (root.names ++ [name]) =
    d.follow (d.start root) (root.names ++ [name])
  rw [follow_append, follow_append, h.followed, h'.followed]
  show d'.follow q [name] = d.follow q [name]
  simp only [follow, h.directory, h'.directory]

theorem next_of_ne_up (hname : name ≠ "..") : q.next name = q ++ [name] := if_neg hname

/-- Other names lead from a directory to other places. -/
theorem next_ne (hname : name ≠ "..") (hother : other ≠ "..") (hne : other ≠ name) :
    q.next other ≠ q.next name := by
  rw [next_of_ne_up hname, next_of_ne_up hother]
  intro hsame
  exact hne (List.singleton_inj.mp (List.append_cancel_left hsame))

/-- What exists under a name is an entry with that name. -/
theorem mem_entries_of_exists (hname : name ≠ "..") (h : d.exists? (root.child name) = .ok true) :
    some name ∈ d.entries.map fun e => e.1.getLast? := by
  obtain ⟨p, hp, hsome⟩ := exists_eq_true_iff.mp h
  obtain ⟨q, -, rfl⟩ := leads_of_locate hp
  have hne : q ++ [name] ≠ [] := List.append_ne_nil_of_right_ne_nil _ (List.cons_ne_nil _ _)
  rw [next_of_ne_up hname, node?, if_neg hne] at hsome
  obtain ⟨node, hnode⟩ := Option.isSome_iff_exists.mp hsome
  obtain ⟨others, more, hentries, -⟩ := List.lookup_eq_some_iff.mp hnode
  refine List.mem_map.mpr ⟨(q ++ [name], node), ?_, List.getLast?_concat⟩
  rw [hentries]
  exact List.mem_append_right _ List.mem_cons_self

/-! ## Changing one entry -/

theorem node?_put (hp : p ≠ []) (node : Node) (q : Place) :
    (d.put p node).node? q = if q = p then some node else d.node? q := by
  unfold node? put
  by_cases hroot : q = []
  · rw [if_pos hroot, if_pos hroot, if_neg (hroot ▸ hp.symm)]
  · rw [if_neg hroot, if_neg hroot, Entries.lookup_cons, Entries.lookup_filter_ne]
    by_cases hq : q = p
    · rw [if_pos hq, if_pos hq]
    · rw [if_neg hq, if_neg hq, if_neg hq]

theorem node?_erase (hp : p ≠ []) (q : Place) :
    (d.erase p).node? q = if q = p then none else d.node? q := by
  unfold node? erase
  by_cases hroot : q = []
  · rw [if_pos hroot, if_pos hroot, if_neg (hroot ▸ hp.symm)]
  · rw [if_neg hroot, if_neg hroot, Entries.lookup_filter_ne]

/-- The disks have the same working directory, and the same entries but for one, which is no
directory on either. -/
structure DifferAt (d d' : Disk) (place : Place) : Prop where
  workdir_eq : d'.workdir = d.workdir
  before : d.node? place ≠ some .directory
  after : d'.node? place ≠ some .directory
  elsewhere : ∀ p, p ≠ place → d'.node? p = d.node? p

namespace DifferAt

variable {place : Place}

theorem start_eq (h : DifferAt d d' place) (path : Path) : d'.start path = d.start path := by
  unfold start
  rw [h.workdir_eq]

theorem node_of_directory (h : DifferAt d d' place) (hp : d.node? p = some .directory) :
    d'.node? p = some .directory := by
  rw [h.elsewhere, hp]
  rintro rfl
  exact h.before hp

theorem follow (h : DifferAt d d' place) {more : List Text} (hq : d.follow p more = .ok q) :
    d'.follow p more = .ok q := by
  induction more generalizing p with
  | nil => exact hq
  | cons name more ih =>
      obtain ⟨hdirectory, hshort, hrest⟩ := follow_cons_eq_ok_iff.mp hq
      exact follow_cons_eq_ok_iff.mpr ⟨h.node_of_directory hdirectory, hshort, ih hrest⟩

theorem leads (h : DifferAt d d' place) (hq : d.Leads root q) : d'.Leads root q :=
  ⟨h.start_eq root ▸ h.follow hq.followed, h.node_of_directory hq.directory⟩

end DifferAt

/-- On both disks the path exists or not, and is read or not, in the same way. -/
structure SameAt (d d' : Disk) (path : Path) : Prop where
  exists_eq : d'.exists? path = d.exists? path
  read_eq : d'.read path = d.read path

namespace SameAt

variable {d'' : Disk}

theorem refl (d : Disk) (path : Path) : SameAt d d path := ⟨rfl, rfl⟩

theorem symm (h : SameAt d d' path) : SameAt d' d path := ⟨h.exists_eq.symm, h.read_eq.symm⟩

theorem trans (h : SameAt d d' path) (h' : SameAt d' d'' path) : SameAt d d'' path :=
  ⟨h'.exists_eq.trans h.exists_eq, h'.read_eq.trans h.read_eq⟩

theorem of_locate (hlocate : d'.locate path = d.locate path)
    (hnode : ∀ p, d.locate path = .ok p → d'.node? p = d.node? p) : SameAt d d' path := by
  constructor
  · unfold exists?
    rw [hlocate]
    cases hp : d.locate path with
    | ok p => simp only [hnode p hp]
    | error why => cases why with
      | zeroByte => rfl
      | surrogate _ => rfl
      | system reason _ => cases reason <;> rfl
  · unfold read
    rw [hlocate]
    cases hp : d.locate path with
    | ok p => simp only [bind, Except.bind, hnode p hp]
    | error why => rfl

/-- What changes under one name of a directory is not seen under another. -/
theorem of_differAt (h : DifferAt d d' (q.next name)) (hq : d.Leads root q) (hname : name ≠ "..")
    (hother : other ≠ "..") (hne : other ≠ name) : SameAt d d' (root.child other) := by
  refine .of_locate (hq.locate_eq (h.leads hq) other) fun p hp => ?_
  obtain ⟨q', hq', rfl⟩ := leads_of_locate hp
  obtain rfl : q' = q := Except.ok.inj (hq'.followed.symm.trans hq.followed)
  exact h.elsewhere _ (next_ne hname hother hne)

end SameAt

/-! ## Writing and removing -/

/-- A file is written where there is none or another one. -/
theorem write_eq_ok {content : Bytes} (h : d.write path content = .ok d') :
    ∃ p, d.locate path = .ok p ∧ d.node? p ≠ some .directory ∧ d' = d.put p (.file content) := by
  obtain ⟨p, hp, hput⟩ := Result.bind_eq_ok_iff.mp h
  refine ⟨p, hp, ?_⟩
  cases hnode : d.node? p with
  | none =>
      rw [hnode] at hput
      exact ⟨nofun, (Except.ok.inj hput).symm⟩
  | some node =>
      rw [hnode] at hput
      cases node with
      | directory => cases hput
      | sealedFile => cases hput
      | sealedDirectory => cases hput
      | file old => exact ⟨nofun, (Except.ok.inj hput).symm⟩

/-- Only files are removed. -/
theorem unlink_eq_ok (h : d.unlink path = .ok d') :
    ∃ p, d.locate path = .ok p ∧ d.node? p ≠ some .directory ∧ d' = d.erase p := by
  obtain ⟨p, hp, herase⟩ := Result.bind_eq_ok_iff.mp h
  refine ⟨p, hp, ?_⟩
  cases hnode : d.node? p with
  | none =>
      rw [hnode] at herase
      cases herase
  | some node =>
      rw [hnode] at herase
      cases node with
      | directory => cases herase
      | sealedDirectory => cases herase
      | sealedFile => exact ⟨nofun, (Except.ok.inj herase).symm⟩
      | file old => exact ⟨nofun, (Except.ok.inj herase).symm⟩

/-- Where there is no directory, there is not the root. -/
theorem ne_nil_of_node (h : d.node? p ≠ some .directory) : p ≠ [] := fun hnil => h (if_pos hnil)

theorem differAt_put {node : Node} (h : d.node? p ≠ some .directory) (hnode : node ≠ .directory) :
    DifferAt d (d.put p node) p := by
  have hp := ne_nil_of_node h
  refine ⟨rfl, h, ?_, fun q hq => ?_⟩
  · rw [node?_put hp, if_pos rfl]
    exact fun hsame => hnode (Option.some.inj hsame)
  · rw [node?_put hp, if_neg hq]

theorem differAt_erase (h : d.node? p ≠ some .directory) : DifferAt d (d.erase p) p := by
  have hp := ne_nil_of_node h
  refine ⟨rfl, h, ?_, fun q hq => ?_⟩
  · rw [node?_erase hp, if_pos rfl]
    exact nofun
  · rw [node?_erase hp, if_neg hq]

/-- A file of a directory that was written has the new content, and the files beside it have
what they had. -/
theorem write_child {content : Bytes} (hname : name ≠ "..")
    (h : d.write (root.child name) content = .ok d') :
    d'.read (root.child name) = .ok content ∧
      ∀ other : Text, other ≠ ".." → other ≠ name → SameAt d d' (root.child other) := by
  obtain ⟨p, hplace, hnode, rfl⟩ := write_eq_ok h
  obtain ⟨q, hq, rfl⟩ := leads_of_locate hplace
  have hdiffer : DifferAt d (d.put (q.next name) (.file content)) _ := differAt_put hnode nofun
  refine ⟨?_, fun other hother hne => .of_differAt hdiffer hq hname hother hne⟩
  have hwritten : (d.put (q.next name) (.file content)).node? (q.next name) =
      some (.file content) := by
    rw [node?_put (ne_nil_of_node hnode), if_pos rfl]
  unfold read
  rw [hq.locate_eq (hdiffer.leads hq), hplace]
  simp only [bind, Except.bind, hwritten]

/-- A file of a directory that was removed does not exist, and the files beside it are what they
were. -/
theorem unlink_child (hname : name ≠ "..") (h : d.unlink (root.child name) = .ok d') :
    d'.exists? (root.child name) = .ok false ∧
      ∀ other : Text, other ≠ ".." → other ≠ name → SameAt d d' (root.child other) := by
  obtain ⟨p, hplace, hnode, rfl⟩ := unlink_eq_ok h
  obtain ⟨q, hq, rfl⟩ := leads_of_locate hplace
  have hdiffer : DifferAt d (d.erase (q.next name)) _ := differAt_erase hnode
  refine ⟨?_, fun other hother hne => .of_differAt hdiffer hq hname hother hne⟩
  have hgone : (d.erase (q.next name)).node? (q.next name) = none := by
    rw [node?_erase (ne_nil_of_node hnode), if_pos rfl]
  unfold exists?
  rw [hq.locate_eq (hdiffer.leads hq), hplace]
  simp only [hgone, Option.isSome_none]

end Disk

end ImageTrust
