import ReplicatedFs.Library.Posix.Inside
import ReplicatedFs.Proofs.Rfs.Metadata

/-!
# `ReplicatedFs.Proofs.Rfs.Parallel`: operations on one outline

The outline of a mirror directory is a file system of its own, and `MetadataCall.apply` is what an
operation makes of it. An operation that `Fits` has no symbolic link on its path and is portable.

* `MetadataCall.apply_of_sameShape`: on the files of any peer the operation does this to the
  outline, whether the peer carries out the call or mirrors the request.
* `MetadataCall.foldl_apply_perm`: operations on unrelated paths can be carried out in any order.
* `MetadataCall.Fits.foldl`: an operation still fits after others on unrelated paths.
-/

set_option autoImplicit false

namespace ReplicatedFs.Rfs

open Library Library.Posix Protobuf

namespace MetadataCall

/-- The outline after the operation. -/
def apply (proc : Process) (t : Store) (l : MetadataCall) : Store :=
  (l.op.edit proc t l.object).apply t

/-- No link is on the path of the operation, and its system call does what the function of `os`
does. -/
def Fits (proc : Process) (t : Store) (l : MetadataCall) : Prop :=
  t.Plain l.op.follows l.object ∧ l.op.portable proc t l.object = true

instance (proc : Process) (t : Store) (l : MetadataCall) : Decidable (l.Fits proc t) :=
  inferInstanceAs (Decidable (_ ∧ _))

/-- The operations are on unrelated paths. -/
def Apart (l l' : MetadataCall) : Prop := Unrelated l.object l'.object

instance (l l' : MetadataCall) : Decidable (l.Apart l') :=
  inferInstanceAs (Decidable (Unrelated _ _))

/-- Which of the calls is named first does not matter. The definition asks for both directions. -/
theorem Apart.symm {l l' : MetadataCall} (h : l.Apart l') : l'.Apart l := ⟨h.2, h.1⟩

/-- The names of entries are not special. The kernel never passes `.` or `..` to the file system. -/
theorem normal_object (l : MetadataCall) : Normal l.object := by
  intro n hn
  obtain ⟨name, -, rfl⟩ := List.mem_map.mp hn
  exact ⟨name.ne_dot, name.ne_dotdot⟩

section Footprint
variable {proc : Process} {t t' : Store} (l : MetadataCall)

/-- A path without links has none before its end, so it also fits the calls that do not follow the
last name. -/
private theorem plain_false {p : Path} {follow : Bool} (h : t.Plain follow p) :
    t.Plain false p := by
  intro q hq hend
  exact h q hq (.inl (hend.resolve_right (by simp)))

/-- The edit depends on what is around the path. So an operation elsewhere does not change it.
`RENAME` and `LINK` have two paths, and they are not among the calls that this is about. -/
theorem edit_congr (hplain : t.Plain l.op.follows l.object)
    (heq : Set.EqOn t.get t'.get (around l.object)) :
    l.op.edit proc t l.object = l.op.edit proc t' l.object := by
  have hnormal := l.normal_object
  generalize l.object = p at hplain heq hnormal
  obtain ⟨r, op, hsingle⟩ := l
  cases op with
  | create name flags mode =>
    simp only [Operation.edit, osOpenFile]
    rw [openFile_congr hnormal hplain heq]
  | mkdir name mode =>
    simp only [Operation.edit, osMkdir, mkdir]
    rw [makeEntry_congr hnormal hplain heq]
  | setattr mode =>
    simp only [Operation.edit, osChmod]
    rw [chmod_congr hnormal hplain heq]
  | rmdir name | unlink name =>
    simp only [Operation.edit]
    rw [osRemove_congr hnormal hplain heq]
  -- These two have two paths. They are not among the calls here, and their edit is none.
  | rename name newParent newName flags | link target name => rfl

/-- An edit at a path stays below it, and an operation that fails makes none. -/
private theorem within_ofResult {ε : Type} {x : Except ε Edit} {writes : Set Path}
    (h : ∀ e, x = .ok e → e.Within writes) : (Edit.ofResult x).Within writes := by
  cases x with
  | error err => trivial
  | ok e => exact h e rfl

/-- The edit is at the path, or below it when a directory is taken out. -/
theorem edit_within (hplain : t.Plain l.op.follows l.object) :
    (l.op.edit proc t l.object).Within (below l.object) := by
  have hnormal := l.normal_object
  generalize l.object = p at hplain hnormal
  have hp : p ∈ below p := List.prefix_refl p
  obtain ⟨r, op, hsingle⟩ := l
  cases op with
  | create name flags mode =>
    refine within_ofResult fun e he => ?_
    obtain ⟨q, hq⟩ := osOpenFile_snd_eq_ok he
    -- `Create` leaves a file that is there, or makes or truncates it.
    obtain ⟨-, rfl | ⟨node, rfl⟩⟩ := openFile_at hnormal hplain hq
    · trivial
    · exact hp
  | mkdir name mode =>
    refine within_ofResult fun e he => ?_
    obtain rfl := makeEntry_at hnormal hplain (ok_of_mapError he)
    exact hp
  | setattr mode =>
    refine within_ofResult fun e he => ?_
    obtain ⟨node, rfl⟩ := chmod_at hnormal hplain (ok_of_mapError he)
    exact hp
  | rmdir name | unlink name =>
    refine within_ofResult fun e he => ?_
    obtain rfl := osRemove_at hnormal hplain he
    exact hp
  | rename name newParent newName flags | link target name => trivial

/-- The footprint of an operation: it depends on what is around its path, and changes what is
below it. -/
theorem localAt (proc : Process) (hplain : t.Plain l.op.follows l.object) :
    LocalAt Store.get (fun t => l.apply proc t) (around l.object) (below l.object) t :=
  localAt_of_store id (fun t => l.op.edit proc t l.object) (fun _ => rfl)
    (below_subset_around _) (fun _ heq => l.edit_congr hplain heq) (l.edit_within hplain)

variable {l} in
/-- Operations on unrelated paths are independent: what one writes, the other does not read. -/
theorem Apart.independent {l' : MetadataCall} (h : l.Apart l') :
    Independent (fun l : MetadataCall => around l.object) (fun l => below l.object) l l' :=
  ⟨Unrelated.disjoint h, Unrelated.disjoint h.symm⟩

end Footprint

section Sequence
variable {proc : Process} {t : Store} {ls ls' : List MetadataCall}

/-- Operations on unrelated paths leave the same outline in any order. -/
theorem foldl_apply_perm (hperm : ls.Perm ls')
    (hplain : ∀ l ∈ ls, t.Plain l.op.follows l.object) (hapart : ls.Pairwise Apart) :
    ls.foldl (apply proc) t = ls'.foldl (apply proc) t := by
  refine Store.ext ?_
  exact LocalAt.foldl_perm (fun l t => MetadataCall.apply proc t l) hperm
    (fun l _ => below_subset_around l.object) (fun l hl => l.localAt proc (hplain l hl))
    (hapart.imp Apart.independent)

/-- What is around a path is not changed by operations on unrelated paths. -/
theorem eqOn_foldl (proc : Process) (hplain : ∀ l ∈ ls, t.Plain l.op.follows l.object)
    (hapart : ls.Pairwise Apart) {l : MetadataCall} (hl : ∀ k ∈ ls, k.Apart l) :
    Set.EqOn t.get (ls.foldl (apply proc) t).get (around l.object) := by
  have hframe := (LocalAt.foldl (fun l t => MetadataCall.apply proc t l)
    (fun l _ => below_subset_around l.object) (fun l hl => l.localAt proc (hplain l hl))
    (hapart.imp Apart.independent)).1
  exact eqOn_of_frame (fun l : MetadataCall => around l.object) l hframe
    fun k hk => (hl k hk).independent

/-- Links are seen on the path itself. So only the nodes around it decide whether there is one. -/
private theorem plain_congr {t' : Store} {follow : Bool} {p : Path}
    (heq : Set.EqOn t.get t'.get (around p)) (h : t.Plain follow p) : t'.Plain follow p := by
  intro q hq hend
  rw [← heq (.inl ((List.mem_inits _ _).mp hq))]
  exact h q hq hend

/-- Whether an operation is portable depends on what is around its path. -/
private theorem portable_congr {t' : Store} (l : MetadataCall) (hplain : t.Plain false l.object)
    (heq : Set.EqOn t.get t'.get (around l.object)) :
    l.op.portable proc t l.object = l.op.portable proc t' l.object := by
  have hnormal := l.normal_object
  generalize l.object = p at hplain heq hnormal
  obtain ⟨r, op, hsingle⟩ := l
  cases op with
  -- `O_NOFOLLOW` and the like matter only where there is a link.
  | create name flags mode =>
    simp only [Operation.portable, isLink_congr hnormal hplain heq]
  | rmdir name => simp only [Operation.portable, isNonDir_congr hnormal hplain heq]
  | unlink name => simp only [Operation.portable, isEmptyDir_congr hnormal hplain heq]
  | _ => rfl

/-- An operation still fits after others on unrelated paths, as they do not change what it looks
at. -/
theorem Fits.foldl (proc : Process) {proc' : Process} {l : MetadataCall} (h : l.Fits proc' t)
    (hplain : ∀ l ∈ ls, t.Plain l.op.follows l.object) (hapart : ls.Pairwise Apart)
    (hl : ∀ k ∈ ls, k.Apart l) : l.Fits proc' (ls.foldl (apply proc) t) := by
  have heq := eqOn_foldl proc hplain hapart hl
  refine ⟨plain_congr heq h.1, ?_⟩
  rw [← l.portable_congr (plain_false h.1) heq]
  exact h.2

end Sequence

section Site
variable {proc : Process} {s s' : Store} {dir : Path} (l : MetadataCall)

/-- The path of an operation stays inside the mirror directory. With a link on it, it could lead
out. -/
theorem inside (haccess : Accessible proc s dir) (hdir : Normal dir)
    (hplain : (s.outline dir).Plain l.op.follows l.object) :
    Inside proc s l.op.follows dir l.object :=
  inside_of_plain haccess hdir l.normal_object hplain

/-- An operation is portable on the files of a peer if it is so on the outline. The tests that
decide it look at types and at emptiness, and the outline shows both. -/
theorem portable_outline (haccess : Accessible proc s dir) (hdir : Normal dir)
    (h : l.Fits proc (s.outline dir)) :
    l.op.portable proc s (dir ++ l.object) = true := by
  obtain ⟨hlink, hnonDir, hempty⟩ :=
    (inside_of_plain haccess hdir l.normal_object (plain_false h.1)).shown
  have hport := h.2
  generalize l.object = p at hlink hnonDir hempty hport
  obtain ⟨r, op, hsingle⟩ := l
  cases op with
  | create name flags mode =>
    simp only [Operation.portable] at hport ⊢
    rwa [hlink]
  | rmdir name =>
    simp only [Operation.portable] at hport ⊢
    rwa [hnonDir]
  | unlink name =>
    simp only [Operation.portable] at hport ⊢
    rwa [hempty]
  | _ => exact hport

/-- The root of the outline stays a directory. Only `Setattr` can be about the root, and it keeps
the type. -/
private theorem root_apply {t : Store} (hplain : t.Plain l.op.follows l.object)
    (hroot : (t.get []).map Node.type = some .directory) :
    ((l.apply proc t).get []).map Node.type = some .directory := by
  by_cases hobj : l.object = []
  · -- Only `Setattr` is about the root, and it keeps the type.
    obtain ⟨r, op, hsingle⟩ := l
    cases op with
    | setattr mode =>
      have hr : EntryName.values r = [] := hobj
      obtain ⟨mode', hget⟩ := Store.isDir_of_type hroot
      have hresolve : resolve proc t true [] = .ok (.existing [] (.dir mode')) := by
        simp [resolve, walk, walkFrom, hget]
      simp [MetadataCall.apply, MetadataCall.object, Operation.objects, Operation.edit, osChmod,
        chmod, hr, hresolve, Except.mapError, Edit.ofResult, Edit.apply, Node.withMode, Node.type]
    | create name _ _ | mkdir name _ | rmdir name | unlink name =>
      simp [MetadataCall.object, Operation.objects, EntryName.values] at hobj
    | rename name newParent newName flags => cases hsingle
    | link target name => cases hsingle
  · have hframe := (l.localAt proc hplain).frame (k := [])
      (fun hmem => hobj (List.prefix_nil.mp hmem))
    rw [hframe]
    exact hroot

/-- An edit below a directory does not change what is above it, and the directory stays accessible
therefore. -/
private theorem sameEdit_frame {e e' : Edit} (h : SameEdit dir e e') {q : Path} (hq : q <+: dir)
    (hne : q ≠ dir) : (e.apply s).get q = s.get q := by
  have hnot : ∀ k, q ≠ dir ++ k := by
    intro k heq
    have hlen := hq.length_le
    rw [heq, List.length_append] at hlen
    have hk : k = [] := List.length_eq_zero_iff.mp (by omega)
    exact hne (by rw [heq, hk, List.append_nil])
  cases h with
  | keep => rfl
  | put k node => exact Function.update_of_ne (hnot k) _ _
  | delete k => exact Function.update_of_ne (hnot k) _ _

/-- Take the files of a peer that has the edit of the operation behind it, up to the contents of
files. Their outline is the one after the operation, and the mirror directory is still there. -/
theorem apply_of_sameShape (haccess : Accessible proc s dir) (hdir : Normal dir)
    (hplain : (s.outline dir).Plain l.op.follows l.object)
    (hshape : s'.SameShape ((l.op.edit proc s (dir ++ l.object)).apply s)) :
    s'.outline dir = l.apply proc (s.outline dir) ∧ Accessible proc s' dir := by
  have hsame := Operation.edit_outline l (l.inside haccess hdir hplain)
  have houtline : s'.outline dir = l.apply proc (s.outline dir) := by
    rw [hshape.outline]
    exact hsame.outline
  refine ⟨houtline, ?_, fun q hq hne => ?_⟩
  · -- The root of the outline is the mirror directory.
    have hroot : ∀ t : Store, ((t.outline dir).get []).map Node.type =
        (t.get dir).map Node.type := by
      intro t
      rw [Store.get_outline, List.append_nil, Option.map_map]
      congr 1
      funext node
      cases node <;> rfl
    rw [← hroot, houtline]
    refine l.root_apply hplain ?_
    rw [hroot]
    exact haccess.1
  · obtain ⟨mode, hget, hmay⟩ := searchable_eq_true.mp (haccess.2 q hq hne)
    -- The directories above the mirror directory are outside of every edit.
    have hkeep := sameEdit_frame (s := s) hsame ((List.mem_inits _ _).mp hq) hne
    have hnode := Store.SameShape.get_dir (fun k => (hshape k).symm) (hkeep.trans hget)
    exact searchable_eq_true.mpr ⟨mode, hnode, hmay⟩

end Site

end MetadataCall

end ReplicatedFs.Rfs
