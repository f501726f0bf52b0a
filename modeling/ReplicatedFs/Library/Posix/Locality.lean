import ReplicatedFs.Library.Footprint
import ReplicatedFs.Library.Posix.Calls

/-!
# `ReplicatedFs.Library.Posix.Locality`: which part of the tree a call depends on

When no symbolic link is on the path, a call depends on the nodes above and below its path
only, and it changes nodes at or below it only. For each call there is a `_congr` lemma, that
stores which agree around the path give the same answer, and a `_at` lemma, that its edit is at
the path.

`localAt_of_edit` puts the two together: the call has a footprint.
-/

set_option autoImplicit false

namespace Library.Posix

/-- The path and all below it. -/
def below (p : Path) : Set Path := { q | p <+: q }

/-- The path with all above and below it. -/
def around (p : Path) : Set Path := { q | q <+: p ∨ p <+: q }

/-- What a call changes is among what it looks at. `localAt_of_edit` asks for this. -/
theorem below_subset_around (p : Path) : below p ⊆ around p := fun _ hq => .inr hq

/-- Neither path is above the other one. -/
def Unrelated (p q : Path) : Prop := ¬ p <+: q ∧ ¬ q <+: p

instance (p q : Path) : Decidable (Unrelated p q) := inferInstanceAs (Decidable (_ ∧ _))

/-- What is below a path is not around an unrelated one. So an edit below the one path is not seen
by a call on the other. -/
theorem Unrelated.disjoint {p q : Path} (h : Unrelated p q) :
    Disjoint (below p) (around q) := by
  rw [Set.disjoint_left]
  rintro k hpk (hkq | hqk)
  · exact h.1 (List.IsPrefix.trans hpk hkq)
  · rcases List.prefix_or_prefix_of_prefix hpk hqk with hpq | hqp
    · exact h.1 hpq
    · exact h.2 hqp

/-- No symbolic link is on the way along the path. With `follow`, none is at its end either. -/
def Store.Plain (s : Store) (follow : Bool) (p : Path) : Prop :=
  ∀ q ∈ p.inits, q ≠ p ∨ follow = true → (s.get q).map Node.type ≠ some .symlink

instance (s : Store) (follow : Bool) (p : Path) : Decidable (s.Plain follow p) :=
  inferInstanceAs (Decidable (∀ q ∈ p.inits, _))

/-- What is found is at the path. -/
def Found.At (p : Path) : Found → Prop
  | .existing q _ => q = p
  | .missing parent name => parent ++ [name] = p

section Walk
variable {proc : Process} {s s' : Store} {follow : Bool} {p : Path}

/-- A link on the way along the path is at its end, and is not followed. `Plain` excludes all other
links, so the walks below never have to start anew behind one. -/
theorem Store.Plain.end_of_link (hplain : s.Plain follow p) {cur : Path} {rest : List Name}
    (hp : cur ++ rest = p) {target : String} (hlink : s.get cur = some (.symlink target)) :
    rest = [] ∧ follow = false := by
  by_contra hnot
  refine hplain cur ((List.mem_inits _ _).mpr ⟨rest, hp⟩) ?_ (by rw [hlink]; rfl)
  by_cases hrest : rest = []
  · exact .inr (by simpa [hrest] using hnot)
  · left
    intro hend
    rw [← hp] at hend
    exact hrest (by simpa using hend)

/-- Along a path without links, the walk depends on the nodes on the path only. By induction on the
rest of the names, with what was walked so far in `cur`. Since no link is followed, the functions
for links may be different ones. -/
private theorem walkFrom_plain (onLink : Path → List Name → Except Errno Found)
    (hnormal : Normal p) (hplain : s.Plain follow p)
    (heq : Set.EqOn s.get s'.get { q | q <+: p })
    (onLink' : Path → List Name → Except Errno Found) (rest : List Name) (cur : Path)
    (hp : cur ++ rest = p) :
    walkFrom proc s follow onLink cur rest = walkFrom proc s' follow onLink' cur rest := by
  induction rest generalizing cur with
  | nil =>
    have hcur : cur <+: p := ⟨[], hp⟩
    unfold walkFrom
    rw [← heq hcur]
  | cons name rest ih =>
    have hcur : cur <+: p := ⟨name :: rest, hp⟩
    have hnext : cur ++ [name] ++ rest = p := by rw [← hp, List.append_assoc]; rfl
    have hchild : cur ++ [name] <+: p := ⟨rest, hnext⟩
    obtain ⟨hdot, hdots⟩ := hnormal name (by rw [← hp]; simp)
    unfold walkFrom
    rw [← heq hcur, ← heq hchild, if_neg hdot, if_neg hdots, if_neg hdot, if_neg hdots]
    split
    · split
      · rfl
      split
      · rfl
      · -- The next node is not a link that is followed.
        rename_i target htarget
        obtain ⟨rfl, rfl⟩ := hplain.end_of_link hnext htarget
        rfl
      · exact ih (cur ++ [name]) hnext
    · rfl
    · rfl

/-- Along a path without links, the walk ends at the path. By induction on the names, with the
directory that the walk has come to. -/
private theorem walkFrom_at {onLink : Path → List Name → Except Errno Found}
    (hnormal : Normal p) (hplain : s.Plain follow p) (rest : List Name) (cur : Path)
    (hp : cur ++ rest = p) {f : Found} (h : walkFrom proc s follow onLink cur rest = .ok f) :
    f.At p := by
  induction rest generalizing cur with
  | nil =>
    rw [List.append_nil] at hp
    unfold walkFrom at h
    split at h
    · cases h
      exact hp
    · cases h
  | cons name rest ih =>
    have hnext : cur ++ [name] ++ rest = p := by rw [← hp, List.append_assoc]; rfl
    obtain ⟨hdot, hdots⟩ := hnormal name (by rw [← hp]; simp)
    cases walkFrom_cons h with
    | dot hname h => exact absurd hname hdot
    | dotdot hname h => exact absurd hname hdots
    | missing hdir hnone hrest hf =>
      subst hf hrest
      rwa [List.append_nil] at hnext
    | link target hnode hend hf =>
      subst hf
      rwa [hend.1, List.append_nil] at hnext
    -- A link is not followed, as there is none on the way.
    | followed target hnode hmore h => exact absurd (hplain.end_of_link hnext hnode) hmore
    | entry h => exact ih (cur ++ [name]) hnext h

variable (hnormal : Normal p) (hplain : s.Plain follow p)
include hnormal hplain

/-- Resolving a path without links depends on the nodes around it only. With a link on the path it
would depend on the target, which can be anywhere in the store. -/
theorem resolve_congr (heq : Set.EqOn s.get s'.get (around p)) :
    resolve proc s follow p = resolve proc s' follow p :=
  walkFrom_plain _ hnormal hplain (fun _ hq => heq (.inl hq)) _ p [] rfl

/-- A path without links leads to itself, or to its own place when nothing is there. So the edit of
a call is made at the path that was given, and the `_at` lemmas below rest on this. -/
theorem resolve_at {f : Found} (h : resolve proc s follow p = .ok f) : f.At p :=
  walkFrom_at hnormal hplain p [] rfl h

end Walk

section Congr
variable {proc : Process} {s s' : Store} {p : Path}

/-- The permission to change a directory is read off its own node, so agreement at that one path is
enough. -/
theorem mayChange_congr {q : Path} (heq : s.get q = s'.get q) :
    proc.mayChange s q = proc.mayChange s' q := by
  unfold Process.mayChange
  rw [heq]

/-- Whether a directory is empty is a question about the paths below it. This is why a footprint has
to take in what is below a path and not only the way to it. -/
theorem isLeaf_congr (heq : Set.EqOn s.get s'.get (around p)) : s.isLeaf p = s'.isLeaf p := by
  rw [Bool.eq_iff_iff, Store.isLeaf_iff, Store.isLeaf_iff]
  refine forall_congr' fun q => forall_congr' fun hpq => forall_congr' fun _ => ?_
  rw [heq (.inr hpq)]

/-- The parent of a path is above it, where the permission to change an entry is looked up. -/
private theorem dropLast_mem_around (p : Path) : p.dropLast ∈ around p :=
  .inl (List.dropLast_prefix p)

/-- The parent of a missing node is above it, in the same way. -/
private theorem parent_mem_around {parent : Path} {name : Name} (h : parent ++ [name] = p) :
    parent ∈ around p :=
  .inl ⟨[name], h⟩

end Congr

section Calls
variable {proc : Process} {s s' : Store} {p : Path}

/-- The answer of `open` is the same on stores that agree around the path. The hypothesis is about
the flags as they are given. The flags in force may be fewer, but they follow the same links. -/
theorem openFile_congr {flags : OpenFlags} {mode : Mode} (hnormal : Normal p)
    (hplain : s.Plain flags.follows p)
    (heq : Set.EqOn s.get s'.get (around p)) :
    openFile proc s flags mode p = openFile proc s' flags mode p := by
  unfold openFile
  cases hflags : flags.effective with
  | error e => rfl
  | ok flags' =>
    show openPath proc s flags' mode p = openPath proc s' flags' mode p
    -- The flags that are in force follow the same links.
    rw [← (OpenFlags.effective_le hflags).1] at hplain
    unfold openPath
    rw [← resolve_congr hnormal hplain heq]
    cases hf : resolve proc s flags'.follows p with
    | error e => rfl
    | ok f =>
      cases f with
      | existing q node => rfl
      | missing parent name =>
        have hat : parent ++ [name] = p := resolve_at hnormal hplain hf
        simp only [mayChange_congr (heq (parent_mem_around hat))]

/-- What `open` changes is the node at the path: it truncates a file or makes a new one, or it
leaves the tree as it is. -/
theorem openFile_at {flags : OpenFlags} {mode : Mode} (hnormal : Normal p)
    (hplain : s.Plain flags.follows p) {q : Path} {e : Edit}
    (h : openFile proc s flags mode p = .ok (q, e)) :
    q = p ∧ (e = .keep ∨ ∃ node, e = .put p node) := by
  rcases openFile_eq_ok h with ⟨node, hf, hedit⟩ | ⟨parent, name, m, hf, -, rfl, rfl⟩
  · obtain rfl : q = p := resolve_at hnormal hplain hf
    rcases hedit with rfl | ⟨-, m, content, -, rfl⟩
    · exact ⟨rfl, .inl rfl⟩
    · exact ⟨rfl, .inr ⟨_, rfl⟩⟩
  · have hat : parent ++ [name] = p := resolve_at hnormal hplain hf
    exact ⟨hat, .inr ⟨_, by rw [hat]⟩⟩

/-- `makeEntry` never follows a link at the end, so only the way to the path has to be free of
links. -/
theorem makeEntry_congr {node : Node} (hnormal : Normal p) (hplain : s.Plain false p)
    (heq : Set.EqOn s.get s'.get (around p)) :
    makeEntry proc s node p = makeEntry proc s' node p := by
  unfold makeEntry
  rw [← resolve_congr hnormal hplain heq]
  cases hf : resolve proc s false p with
  | error e => rfl
  | ok f =>
    cases f with
    | existing q node => rfl
    | missing parent name =>
      have hat : parent ++ [name] = p := resolve_at hnormal hplain hf
      simp only [mayChange_congr (heq (parent_mem_around hat))]

/-- A new entry is at the path itself, when no link on the way leads elsewhere. A link at the end is
not followed by the calls that make an entry, so `Plain false` is enough. -/
theorem makeEntry_at {node : Node} (hnormal : Normal p) (hplain : s.Plain false p) {e : Edit}
    (h : makeEntry proc s node p = .ok e) : e = .put p node := by
  obtain ⟨parent, name, hf, rfl⟩ := makeEntry_eq_ok h
  have hat : parent ++ [name] = p := resolve_at hnormal hplain hf
  rw [hat]

/-- Removing an entry needs the permission of its parent, which is above the path. The entry itself
and what is below it have been tested by the caller before. -/
private theorem removeEntry_congr (heq : Set.EqOn s.get s'.get (around p)) :
    removeEntry proc s p = removeEntry proc s' p := by
  unfold removeEntry
  rw [mayChange_congr (heq (dropLast_mem_around p))]

/-- The answer of `unlink` is the same on stores that agree around the path, since all that it reads
is there. -/
theorem unlink_congr (hnormal : Normal p) (hplain : s.Plain false p)
    (heq : Set.EqOn s.get s'.get (around p)) : unlink proc s p = unlink proc s' p := by
  unfold unlink
  rw [← resolve_congr hnormal hplain heq]
  cases hf : resolve proc s false p with
  | error e => rfl
  | ok f =>
    cases f with
    | missing parent name => rfl
    | existing q node =>
      obtain rfl : q = p := resolve_at hnormal hplain hf
      cases node with
      | dir mode => rfl
      -- The entry is removed if its directory may be changed, which is above the path.
      | _ => exact removeEntry_congr heq

/-- What `unlink` deletes is at the path, when no link on the way leads elsewhere. A link at the end
is deleted itself, and not what it leads to. -/
theorem unlink_at (hnormal : Normal p) (hplain : s.Plain false p) {e : Edit}
    (h : unlink proc s p = .ok e) : e = .delete p := by
  obtain ⟨q, node, hf, -, -, rfl⟩ := unlink_eq_ok h
  obtain rfl : q = p := resolve_at hnormal hplain hf
  rfl

/-- The answer of `rmdir` depends on what is below the path as well, since a directory has to be
empty. -/
theorem rmdir_congr (hnormal : Normal p) (hplain : s.Plain false p)
    (heq : Set.EqOn s.get s'.get (around p)) : rmdir proc s p = rmdir proc s' p := by
  unfold rmdir
  rw [← resolve_congr hnormal hplain heq]
  cases hf : resolve proc s false p with
  | error e => rfl
  | ok f =>
    cases f with
    | missing parent name => rfl
    | existing q node =>
      obtain rfl : q = p := resolve_at hnormal hplain hf
      cases node with
      -- Whether it is empty depends on what is below the path.
      | dir mode => simp only [isLeaf_congr heq, removeEntry_congr heq]
      | _ => rfl

/-- What `rmdir` deletes is at the path, under the same condition. -/
theorem rmdir_at (hnormal : Normal p) (hplain : s.Plain false p) {e : Edit}
    (h : rmdir proc s p = .ok e) : e = .delete p := by
  obtain ⟨q, mode, hf, -, -, rfl⟩ := rmdir_eq_ok h
  obtain rfl : q = p := resolve_at hnormal hplain hf
  rfl

/-- `chmod` follows a link at the end, so there must be none there either. This is why the condition
on the path is `Plain true`, as for all the calls that follow links. -/
theorem chmod_congr {mode : Mode} (hnormal : Normal p) (hplain : s.Plain true p)
    (heq : Set.EqOn s.get s'.get (around p)) : chmod proc s mode p = chmod proc s' mode p := by
  unfold chmod
  rw [← resolve_congr hnormal hplain heq]

/-- What `chmod` changes is at the path. The node keeps its type and content. -/
theorem chmod_at {mode : Mode} (hnormal : Normal p) (hplain : s.Plain true p) {e : Edit}
    (h : chmod proc s mode p = .ok e) : ∃ node, e = .put p node := by
  obtain ⟨q, node, hf, rfl⟩ := chmod_eq_ok h
  obtain rfl : q = p := resolve_at hnormal hplain hf
  exact ⟨_, rfl⟩

/-- The answer of `lstat` is the same on stores that agree around the path. It does not follow a
link at the end, so such a link is allowed. -/
theorem lstat_congr (hnormal : Normal p) (hplain : s.Plain false p)
    (heq : Set.EqOn s.get s'.get (around p)) : lstat proc s p = lstat proc s' p := by
  unfold lstat statAt
  rw [← resolve_congr hnormal hplain heq]

end Calls

section Rename
variable {proc : Process} {s s' : Store} {old new : Path}

/-- A move asks for the permission of both parents, and for that of the directory itself when it
gets another parent. -/
private theorem moveEntry_congr {node : Node} (heq : Set.EqOn s.get s'.get (around old))
    (heq' : Set.EqOn s.get s'.get (around new)) :
    moveEntry proc s old new node = moveEntry proc s' old new node := by
  unfold moveEntry
  rw [mayChange_congr (heq (dropLast_mem_around old)),
    mayChange_congr (heq' (dropLast_mem_around new))]

/-- Whether an entry can be replaced depends on what is below it, and on nothing at the old path. A
directory has to be empty, and it can only be replaced by another directory. -/
private theorem replaceable_congr {node node' : Node}
    (heq : Set.EqOn s.get s'.get (around new)) :
    replaceable s node new node' = replaceable s' node new node' := by
  cases node' <;> simp only [replaceable, isLeaf_congr heq]

variable (hold : Normal old) (hpold : s.Plain false old) (hnew : Normal new)
  (hpnew : s.Plain false new)
include hold hpold hnew hpnew

/-- `rename` has two paths, and it depends on what is around each of them: on what is above, for the
permissions and the walk, and on what is below the new one, as a directory there has to be empty. -/
theorem rename_congr (heq : Set.EqOn s.get s'.get (around old))
    (heq' : Set.EqOn s.get s'.get (around new)) :
    rename proc s old new = rename proc s' old new := by
  unfold rename
  rw [← resolve_congr hold hpold heq, ← resolve_congr hnew hpnew heq']
  cases hf : resolve proc s false old with
  | error e => rfl
  | ok f =>
    cases f with
    | missing parent name => rfl
    | existing o node =>
      -- Both paths lead to themselves, so all that is left to compare is at them, above or below.
      obtain rfl : o = old := resolve_at hold hpold hf
      cases hf' : resolve proc s false new with
      | error e => rfl
      | ok f' =>
        cases f' with
        | missing parent name =>
          obtain rfl : parent ++ [name] = new := resolve_at hnew hpnew hf'
          exact moveEntry_congr heq heq'
        | existing n node' =>
          obtain rfl : n = new := resolve_at hnew hpnew hf'
          simp only [replaceable_congr heq', moveEntry_congr heq heq']

/-- A move is from the one path to the other. `rename` of an entry onto itself changes nothing. -/
theorem rename_at {e : Edit} (h : rename proc s old new = .ok e) :
    e = .keep ∨ e = .move old new := by
  obtain ⟨o, node, hf, hcases⟩ := rename_eq_ok h
  obtain rfl : o = old := resolve_at hold hpold hf
  rcases hcases with ⟨parent, name, hf', -, rfl⟩ |
    ⟨n, node', hf', ⟨-, rfl⟩ | ⟨-, -, -, rfl⟩⟩
  · obtain rfl : parent ++ [name] = new := resolve_at hnew hpnew hf'
    exact .inr rfl
  · exact .inl rfl
  · obtain rfl : n = new := resolve_at hnew hpnew hf'
    exact .inr rfl

end Rename

section Edits
variable {s s' : Store}

/-- The edit changes only these paths. -/
def Edit.Within (writes : Set Path) : Edit → Prop
  | .keep => True
  | .put p _ => p ∈ writes
  | .delete p => p ∈ writes
  | .move old new => below old ⊆ writes ∧ below new ⊆ writes

/-- Other paths keep their nodes. With `Edit.Within.eqOn` this makes an edit local. -/
theorem Edit.Within.frame {e : Edit} {writes : Set Path} (h : e.Within writes) {k : Path}
    (hk : k ∉ writes) : (e.apply s).get k = s.get k := by
  have hne : ∀ {p}, p ∈ writes → k ≠ p := fun hp heq => hk (heq ▸ hp)
  cases e with
  | keep => rfl
  | put p node => exact Function.update_of_ne (hne h) _ _
  | delete p => exact Function.update_of_ne (hne h) _ _
  | move old new =>
    have hnew : ¬ new <+: k := fun hpre => hk (h.2 hpre)
    have hold : ¬ old <+: k := fun hpre => hk (h.1 hpre)
    simp [Edit.apply, Store.moved, hnew, hold]

/-- Stores that agree on these paths still do so after the edit. A move reads the old paths as well,
and they are among those that are written. So the result of an edit depends on the places that it
writes and on no others. -/
theorem Edit.Within.eqOn {e : Edit} {writes : Set Path} (h : e.Within writes)
    (heq : Set.EqOn s.get s'.get writes) :
    Set.EqOn (e.apply s).get (e.apply s').get writes := by
  intro k hk
  cases e with
  | keep => exact heq hk
  | put p node => by_cases hkp : k = p <;> simp [Edit.apply, hkp, heq hk]
  | delete p => by_cases hkp : k = p <;> simp [Edit.apply, hkp, heq hk]
  | move old new =>
    simp only [Edit.apply, Store.get_move, Store.moved]
    split
    · -- The path gets the node of the corresponding old path.
      exact heq (h.1 (List.prefix_append _ _))
    · split
      · rfl
      · exact heq hk

/-- A change of a store whose edit depends on some paths has a footprint. `hcongr` says what the
edit reads and `hwithin` what it writes. The store may be a part of a larger state, as the tree of a
mount is. -/
theorem localAt_of_store {σ : Type} (store : σ → Store) (edit : σ → Edit) {op : σ → σ}
    {reads writes : Set Path} {t : σ} (hop : ∀ t, store (op t) = (edit t).apply (store t))
    (hsub : writes ⊆ reads)
    (hcongr : ∀ t', Set.EqOn (store t).get (store t').get reads → edit t = edit t')
    (hwithin : (edit t).Within writes) :
    LocalAt (fun t => (store t).get) op reads writes t := by
  intro t' heq
  have hedit := hcongr t' heq
  refine ⟨fun k hk => ?_, ?_⟩
  · simp only [hop, ← hedit]
    exact hwithin.frame hk
  · simp only [hop, ← hedit]
    exact hwithin.eqOn (heq.mono hsub)

/-- A change of the tree whose edit depends on some paths has a footprint. This is the lemma above
for trees, where the store comes with the proof of its shape. -/
theorem localAt_of_edit (edit : Tree → Edit) {op : Tree → Tree} {reads writes : Set Path}
    {t : Tree} (hop : ∀ t, (op t).1 = (edit t).apply t.1) (hsub : writes ⊆ reads)
    (hcongr : ∀ t', Set.EqOn t.1.get t'.1.get reads → edit t = edit t')
    (hwithin : (edit t).Within writes) :
    LocalAt (fun t : Tree => t.1.get) op reads writes t :=
  localAt_of_store Subtype.val edit hop hsub hcongr hwithin

end Edits

end Library.Posix
