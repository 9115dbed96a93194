/-
# Conversion — documents that hold no value to fail on

A text that is no YAML is malformed, and that is told as such.  A document that is well formed
can still hold a scalar of a kind that its text is none of: a truth value that is no word for
one, a number without digits, a day that no month has.  The failure is then that of the
conversion, and it is told in its words.

Here it is said which documents are free of this: those whose nodes are texts, bytes, nothing,
and lists and mappings of these (`Node.isVerbatim`).  Merging mappings into each other and
taking one value of a mapping for all of it bring in nothing else, so what keeps such a
document from being read is that it is malformed (`read_of_verbatim`).
-/
import ImageTrust.Yaml.Reader
import ImageTrust.Proofs.Action

namespace ImageTrust

namespace Yaml

/-- The kinds of values whose conversion has failures of its own. -/
def Tag.isSpelled : Tag → Bool
  | .bool | .int | .float | .moment => true
  | _ => false

namespace Node

mutual

/-- Whether no part of the node is of a kind whose conversion has failures of its own. -/
def isVerbatim : Node → Bool
  | .scalar kind _ => !kind.isSpelled
  | .list _ items => areVerbatim items
  | .mapping kind entries => !kind.isSpelled && areVerbatimEntries entries
  | .ring _ => true

/-- The same for the items of a list. -/
def areVerbatim : List Node → Bool
  | [] => true
  | n :: rest => isVerbatim n && areVerbatim rest

/-- The same for the entries of a mapping. -/
def areVerbatimEntries : List (Node × Node) → Bool
  | [] => true
  | (k, v) :: rest => isVerbatim k && isVerbatim v && areVerbatimEntries rest

end

end Node

/-! ## Malformed at worst -/

/-- If there is no value, then because the document is malformed. -/
def Filled.Sound {α : Type} (a : Filled α) : Prop := ∀ n why, a = .error (n, why) → why = .malformed

namespace Filled.Sound

variable {α β : Type} {a : Filled α} {b : Filled β}

theorem ok (x : α) : Sound (.ok x : Filled α) := nofun

theorem malformed : Sound (.fail .malformed : Filled α) := by
  intro n why h
  cases h
  rfl

theorem later (ha : a.Sound) : Sound a.later := by
  intro n why h
  obtain ⟨⟨m, found⟩, hfound, hpair⟩ := Result.mapError_eq_error_iff.mp h
  cases hpair
  exact ha m why hfound

theorem map (ha : a.Sound) (f : α → β) : Sound (a.map f) :=
  fun n why h => ha n why (Result.map_eq_error_iff.mp h)

theorem both (ha : a.Sound) (hb : b.Sound) : Sound (Filled.both a b) := by
  intro n why h
  cases a with
  | ok x =>
      cases b with
      | ok y => cases h
      | error e =>
          cases h
          exact hb n why rfl
  | error d =>
      obtain ⟨m, found⟩ := d
      cases b with
      | ok y =>
          cases h
          exact ha n why rfl
      | error e =>
          obtain ⟨m', found'⟩ := e
          rw [Filled.both] at h
          split at h
          · cases h
            exact hb n why rfl
          · cases h
            exact ha n why rfl

theorem all {as : List (Filled α)} (h : ∀ a ∈ as, Sound a) : Sound (Filled.all as) := by
  induction as with
  | nil => exact .ok []
  | cons a rest ih =>
      rw [List.forall_mem_cons] at h
      exact (h.1.both (ih h.2)).map _

theorem key {d : Filled Datum} (hd : d.Sound) : Sound (Entry.key d) := by
  unfold Entry.key
  split
  · exact .malformed
  · exact .malformed
  · exact .malformed
  · exact .malformed
  · exact hd

/-- The entries of a mapping are as sound as keys and values are. -/
theorem collect {entries : List Entry} (h : ∀ e ∈ entries, Sound e.1 ∧ Sound e.2) :
    Sound (Entry.collect entries) := by
  refine Sound.map (Sound.all fun a ha => ?_) _
  obtain ⟨e, he, rfl⟩ := List.mem_map.mp ha
  obtain ⟨hkey, hvalue⟩ := h e he
  exact hkey.key.both hvalue

end Filled.Sound

/-! ## Nodes that are taken by the letter -/

namespace Node

/-- If there are no entries, then because the document is malformed; and they are sound. -/
structure SoundEntries (m : Except Defect (List Entry)) : Prop where
  malformed : ∀ why, m = .error why → why = .malformed
  entries : ∀ found, m = .ok found → ∀ e ∈ found, Filled.Sound e.1 ∧ Filled.Sound e.2

namespace SoundEntries

theorem of_ok {found : List Entry} (h : ∀ e ∈ found, Filled.Sound e.1 ∧ Filled.Sound e.2) :
    SoundEntries (.ok found) where
  malformed _ hwhy := nomatch hwhy
  entries _ hfound := Except.ok.inj hfound ▸ h

theorem none : SoundEntries (.ok []) := .of_ok fun _ he => absurd he List.not_mem_nil

theorem of_malformed : SoundEntries (.error .malformed) where
  malformed _ hwhy := (Except.error.inj hwhy).symm
  entries _ hfound := nomatch hfound

theorem withOwn {m : Merged} (hm : SoundEntries m.entries) {entry : Entry}
    (hentry : Filled.Sound entry.1 ∧ Filled.Sound entry.2) : SoundEntries (m.withOwn entry).entries := by
  cases m with
  | error why =>
      cases hm.malformed why rfl
      exact .of_malformed
  | ok found =>
      refine .of_ok fun e he => ?_
      rcases List.mem_append.mp he with he | he
      · exact hm.entries _ rfl e (List.mem_append_left _ he)
      · rcases List.mem_cons.mp he with rfl | he
        · exact hentry
        · exact hm.entries _ rfl e (List.mem_append_right _ he)

theorem merging {other : Except Defect (List Entry)} {m : Merged} (hother : SoundEntries other)
    (hm : SoundEntries m.entries) : SoundEntries (m.merging other).entries := by
  cases other with
  | error why =>
      cases hother.malformed why rfl
      exact .of_malformed
  | ok others =>
      cases m with
      | error why =>
          cases hm.malformed why rfl
          exact .of_malformed
      | ok found =>
          refine .of_ok fun e he => ?_
          change e ∈ others ++ found.1 ++ found.2 at he
          rw [List.append_assoc, List.mem_append] at he
          rcases he with he | he
          · exact hother.entries _ rfl e he
          · exact hm.entries _ rfl e he

theorem append {first second : Except Defect (List Entry)} (hfirst : SoundEntries first)
    (hsecond : SoundEntries second) :
    SoundEntries (do
      let all ← first
      return (← second) ++ all) := by
  cases first with
  | error why =>
      cases hfirst.malformed why rfl
      exact .of_malformed
  | ok all =>
      cases second with
      | error why =>
          cases hsecond.malformed why rfl
          exact .of_malformed
      | ok more =>
          refine .of_ok fun e he => ?_
          rcases List.mem_append.mp he with he | he
          · exact hsecond.entries _ rfl e he
          · exact hfirst.entries _ rfl e he

end SoundEntries

/-- Of the other conversions only the one from base64 can fail, and the document is malformed
then. -/
theorem sound_converted {kind : Tag} (hkind : kind.isSpelled = false) (t : Text) :
    Filled.Sound (converted kind t) := by
  intro n why hwhy
  obtain ⟨found, hfound, hpair⟩ := Result.mapError_eq_error_iff.mp hwhy
  cases hpair
  unfold Literal.convert at hfound
  split at hfound
  · cases hfound
  · cases hkind
  · cases hkind
  · cases hkind
  · have hbytes := Result.map_eq_error_iff.mp hfound
    unfold Literal.toBytes at hbytes
    split at hbytes
    · split at hbytes
      · cases hbytes
      · cases hbytes
        rfl
    · cases hbytes
      rfl
  · cases hkind
  · cases hfound
  · cases hfound
    rfl

mutual

theorem sound_toDatum : ∀ node : Node, node.isVerbatim = true → Filled.Sound node.toDatum
  | .ring _, _ => by
      rw [toDatum]
      exact .ok _
  | .scalar kind t, h => by
      rw [isVerbatim, Bool.not_eq_true'] at h
      rw [toDatum]
      split
      · exact Filled.Sound.malformed.later
      · exact sound_converted h t
  | .list kind items, h => by
      rw [isVerbatim] at h
      rw [toDatum]
      split
      · exact (Filled.Sound.all (sound_parts items h)).later.map _
      · split
        · exact (Filled.Sound.all (sound_pairs items h)).later.map _
        · split
          · exact Filled.Sound.malformed.later
          · exact .malformed
  | .mapping kind entries, h => by
      rw [isVerbatim, Bool.and_eq_true, Bool.not_eq_true'] at h
      have hentries := sound_merged entries h.2
      rw [toDatum]
      split
      · refine Filled.Sound.map (Filled.Sound.later ?_) _
        split
        · rename_i why hwhy
          cases hentries.malformed why hwhy
          exact .malformed
        · rename_i all hall
          exact .collect (hentries.entries all hall)
      · split
        · exact Filled.Sound.malformed.later
        · split
          · exact .malformed
          · split
            · rename_i hmoment
              rw [hmoment] at h
              cases h.1
            · exact sound_converted h.1 _

theorem sound_parts : ∀ items : List Node, areVerbatim items = true →
    ∀ a ∈ parts items, Filled.Sound a
  | [], _ => by
      rw [parts]
      exact nofun
  | n :: rest, h => by
      rw [areVerbatim, Bool.and_eq_true] at h
      rw [parts, List.forall_mem_cons]
      exact ⟨sound_toDatum n h.1, sound_parts rest h.2⟩

theorem sound_pairs : ∀ items : List Node, areVerbatim items = true →
    ∀ a ∈ pairs items, Filled.Sound a
  | [], _ => by
      rw [pairs]
      exact nofun
  | .mapping _ [(k, v)] :: rest, h => by
      simp only [areVerbatim, isVerbatim, areVerbatimEntries, Bool.and_eq_true] at h
      rw [pairs, List.forall_mem_cons]
      obtain ⟨⟨-, ⟨hk, hv⟩, -⟩, hrest⟩ := h
      exact ⟨((sound_toDatum k hk).both (sound_toDatum v hv)).map _, sound_pairs rest hrest⟩
  | .scalar .. :: _, _ | .list .. :: _, _ | .ring _ :: _, _ | .mapping _ [] :: _, _
  | .mapping _ (_ :: _ :: _) :: _, _ => by
      rw [pairs, List.forall_mem_singleton]
      · exact .malformed
      · exact nofun

theorem sound_merged : ∀ entries : List (Node × Node), areVerbatimEntries entries = true →
    SoundEntries (merged entries).entries
  | [], _ => by
      rw [merged.eq_def]
      exact .none
  | (k, v) :: rest, h => by
      rw [areVerbatimEntries, Bool.and_eq_true, Bool.and_eq_true] at h
      obtain ⟨⟨hk, hv⟩, hrest⟩ := h
      have hmore := sound_merged rest hrest
      rw [merged.eq_def]
      dsimp only
      split
      · split
        · rename_i others
          rw [isVerbatim, Bool.and_eq_true] at hv
          exact (sound_merged others hv.2).merging hmore
        · rename_i items
          rw [isVerbatim] at hv
          exact (sound_mergedIn items hv).merging hmore
        · exact hmore
        · exact .of_malformed
      · split
        · split
          · exact hmore.withOwn ⟨.ok _, sound_toDatum v hv⟩
          · exact hmore.withOwn ⟨.malformed, sound_toDatum v hv⟩
        · exact hmore.withOwn ⟨sound_toDatum k hk, sound_toDatum v hv⟩

theorem sound_mergedIn : ∀ items : List Node, areVerbatim items = true → SoundEntries (mergedIn items)
  | [], _ => by
      rw [mergedIn]
      exact .none
  | .mapping _ others :: rest, h => by
      rw [areVerbatim, Bool.and_eq_true, isVerbatim, Bool.and_eq_true] at h
      rw [mergedIn]
      exact (sound_merged others h.1.2).append (sound_mergedIn rest h.2)
  | .ring _ :: rest, h => by
      rw [areVerbatim, Bool.and_eq_true] at h
      rw [mergedIn]
      exact sound_mergedIn rest h.2
  | .scalar .. :: _, _ => by
      rw [mergedIn]
      · exact .of_malformed
      · exact nofun
      · exact nofun
  | .list .. :: _, _ => by
      rw [mergedIn]
      · exact .of_malformed
      · exact nofun
      · exact nofun

end

end Node

/-- What is found in a text is taken by the letter; and if nothing is found in it, then because
it is malformed. -/
structure Verbatim (room : Room) (t : Text) : Prop where
  malformed : ∀ why, Node.ofText? room t = .error why → why = .malformed
  parts : ∀ root, Node.ofText? room t = .ok (some root) → root.isVerbatim = true

theorem read_of_verbatim {room : Room} {t : Text} (ht : Verbatim room t) {why : Defect}
    (h : read room t = .error why) : why = .malformed := by
  rcases Result.bind_eq_error_iff.mp h with hparts | ⟨root, hroot, hdatum⟩
  · exact ht.malformed why hparts
  · cases root with
    | none => cases hdatum
    | some root =>
        obtain ⟨⟨n, found⟩, hfound, rfl⟩ := Result.mapError_eq_error_iff.mp hdatum
        exact Node.sound_toDatum root (ht.parts root hroot) n found hfound

end Yaml

end ImageTrust
