import ReplicatedFs.Mirror.Consult
import ReplicatedFs.P2p.Transaction

/-!
# `ReplicatedFs.Proofs.Mirror.Commute`: requests that commute

The conflict rule compares the paths of two requests for equality. It lets pass requests that do
not commute, as two renames of one file (`unnoticed_conflicts`).

Requests commute when they are `Apart`: no path that one of them changes is above, below or equal
to a path that the other one uses. The proof gives each request a footprint (`Mirror.localAt`)
from `Library/Footprint.lean`. A symbolic link leads a call away from its path, so there is none
on the paths of the requests (`Mirror.NoLinks`).
-/

set_option autoImplicit false

namespace ReplicatedFs

open Library Library.Posix Protobuf

/-- The calls of the request follow a symbolic link at the end of the path. -/
def Protobuf.RequestType.follows : RequestType → Bool
  | .create | .setattr | .write | .copyFileRange => true
  | _ => false

section Footprint
variable (m : Mirror)

/-- The paths that the calls of a request are about. `SYMLINK` and `LINK` write the first path
into the link without looking at it. -/
def Mirror.uses (r : Request) : List Path :=
  match r.type, r.metadata with
  | _, none => []
  | .unrecognized _, _ => []
  | .rename, some md | .copyFileRange, some md =>
    [m.path md.relativePath, m.path md.newRelativePath]
  | .symlink, some md | .link, some md => [m.path md.newRelativePath]
  | _, some md => [m.path md.relativePath]

/-- The paths that a request changes. -/
def Mirror.changes (r : Request) : List Path :=
  match r.type, r.metadata with
  | .copyFileRange, some md => [m.path md.newRelativePath]
  | _, _ => m.uses r

/-- No path that `r` changes is above, below or equal to a path that `r'` uses. -/
def Mirror.Apart (r r' : Request) : Prop :=
  ∀ p ∈ m.changes r, ∀ q ∈ m.uses r', Unrelated p q

instance (r r' : Request) : Decidable (m.Apart r r') :=
  inferInstanceAs (Decidable (∀ p ∈ m.changes r, ∀ q ∈ m.uses r', _))

/-- No symbolic link is on the paths of the request. -/
def Mirror.NoLinks (s : Store) (r : Request) : Prop :=
  ∀ p ∈ m.uses r, s.Plain r.type.follows p

instance (s : Store) (r : Request) : Decidable (m.NoLinks s r) :=
  inferInstanceAs (Decidable (∀ p ∈ m.uses r, _))

/-- What a request depends on. -/
def Mirror.reads (r : Request) : Set Path := { q | ∃ p ∈ m.uses r, q ∈ around p }

/-- What a request can change. -/
def Mirror.writes (r : Request) : Set Path := { q | ∃ p ∈ m.changes r, q ∈ below p }

end Footprint

section Locality
variable {m : Mirror} {proc : Process} {s s' : Store} {r : Request}

/-- What a request changes it also uses. A copy is the request that uses a path without a change
there. -/
theorem Mirror.changes_subset_uses : m.changes r ⊆ m.uses r := by
  unfold Mirror.changes
  split
  · rename_i md htype hmd
    simp [Mirror.uses, htype, hmd]
  · exact List.Subset.refl _

/-- The same for the sets of nodes: what is below a path is around it. -/
theorem Mirror.writes_subset_reads : m.writes r ⊆ m.reads r := by
  rintro q ⟨p, hp, hq⟩
  exact ⟨p, Mirror.changes_subset_uses hp, below_subset_around p hq⟩

/-- What one request changes, the other one does not depend on. With this the theorem of the library
on independent steps applies. -/
theorem Mirror.Apart.disjoint {r' : Request} (h : m.Apart r r') :
    Disjoint (m.writes r) (m.reads r') := by
  rw [Set.disjoint_left]
  rintro k ⟨p, hp, hpk⟩ ⟨q, hq, hqk⟩
  exact Set.disjoint_left.mp (h p hp q hq).disjoint hpk hqk

/-- `WRITE` goes through a link at the end of the path, so there must be none there. -/
private theorem Mirror.write_congr {md : Metadata} {content : List UInt8}
    (hplain : s.Plain true (m.path md.relativePath))
    (heq : Set.EqOn s.get s'.get (around (m.path md.relativePath))) :
    m.write proc s md content = m.write proc s' md content := by
  unfold Mirror.write osOpenFile
  dsimp only
  rw [openFile_congr (m.normal_path _) hplain heq]

/-- The content goes where the file is. A write to a file that was just made is one edit with the
making of it. -/
private theorem writeAt_put (p : Path) (content : List UInt8) (offset : Int64) (q : Path)
    (node : Node) : ∃ node', (writeAt p content offset (.put q node)).1 = .put q node' := by
  cases node with
  | file mode old =>
    simp only [writeAt]
    split
    · exact ⟨_, rfl⟩
    · exact ⟨_, rfl⟩
  | _ => exact ⟨_, rfl⟩

/-- `WRITE` changes the file at the path, or makes it. Nothing else in the tree is touched. -/
private theorem Mirror.write_at {md : Metadata} {content : List UInt8}
    (hplain : s.Plain true (m.path md.relativePath)) :
    (m.write proc s md content).1 = .keep ∨
      ∃ node, (m.write proc s md content).1 = .put (m.path md.relativePath) node := by
  unfold Mirror.write
  dsimp only
  split
  · exact .inl rfl
  · rename_i q e hopen
    obtain ⟨-, rfl | ⟨node, rfl⟩⟩ :=
      openFile_at (m.normal_path _) hplain (ok_of_mapError hopen)
    · exact .inl rfl
    · exact .inr (writeAt_put _ _ _ _ node)

/-- The answer of a copy depends on what is around both paths. It reads the one file and writes the
other. -/
private theorem Mirror.copyFileRange_congr {md : Metadata}
    (hsrc : s.Plain true (m.path md.relativePath))
    (hdst : s.Plain true (m.path md.newRelativePath))
    (heq : Set.EqOn s.get s'.get (around (m.path md.relativePath)))
    (heq' : Set.EqOn s.get s'.get (around (m.path md.newRelativePath))) :
    m.copyFileRange proc s md = m.copyFileRange proc s' md := by
  unfold Mirror.copyFileRange
  rw [← openFile_congr (m.normal_path _) hsrc heq, ← openFile_congr (m.normal_path _) hdst heq']
  cases hopen : openFile proc s { read := true } 0 (m.path md.relativePath) with
  | error err => rfl
  | ok result =>
    obtain ⟨src, e⟩ := result
    obtain ⟨rfl, -⟩ := openFile_at (m.normal_path _) hsrc hopen
    cases hopen' : openFile proc s { write := true } 0 (m.path md.newRelativePath) with
    | error err => rfl
    | ok result' =>
      obtain ⟨dst, e'⟩ := result'
      obtain ⟨rfl, -⟩ := openFile_at (m.normal_path _) hdst hopen'
      -- The two files are at the two paths, in both stores.
      have hcall : ∀ readOff writeOff len,
          Library.Posix.copyFileRange proc s (m.path md.relativePath)
              (m.path md.newRelativePath) readOff writeOff len =
            Library.Posix.copyFileRange proc s' (m.path md.relativePath)
              (m.path md.newRelativePath) readOff writeOff len := by
        intro readOff writeOff len
        unfold Library.Posix.copyFileRange
        rw [heq (.inl (List.prefix_refl _)), heq' (.inl (List.prefix_refl _))]
      simp only [hcall]

/-- But only the destination is changed, and only its content. The source is opened for reading, and
the destination without `O_TRUNC`, so the opening changes nothing. A copy of a part of the range is
an error, and the part stays. -/
private theorem Mirror.copyFileRange_at {md : Metadata}
    (hdst : s.Plain true (m.path md.newRelativePath)) :
    (m.copyFileRange proc s md).1 = .keep ∨
      ∃ node, (m.copyFileRange proc s md).1 = .put (m.path md.newRelativePath) node := by
  unfold Mirror.copyFileRange
  split
  · exact .inl rfl
  split
  · exact .inl rfl
  -- Both files are open from here on.
  rename_i src _ _ _ dst _ hopen'
  obtain ⟨rfl, -⟩ := openFile_at (m.normal_path _) hdst hopen'
  dsimp only
  unfold Library.Posix.copyFileRange
  split
  · split
    · exact .inl rfl
    · exact .inr ⟨_, rfl⟩
  · exact .inl rfl

/-- A request does the same in stores that agree on what it depends on. This is the first half of
its footprint. There is one case for each branch of the switch, and each of them uses the lemma on
the function of `os` that it calls. -/
theorem Mirror.change_congr (hplain : m.NoLinks s r)
    (heq : Set.EqOn s.get s'.get (m.reads r)) :
    m.change proc s r = m.change proc s' r := by
  have hat : ∀ p ∈ m.uses r, Set.EqOn s.get s'.get (around p) :=
    fun p hp q hq => heq ⟨p, hp, hq⟩
  obtain ⟨type, metadata, clock, content⟩ := r
  -- One case for each branch of the switch, with the `_congr` lemma of its calls.
  cases metadata with
  | none => cases type <;> rfl
  | some md =>
    have hn := m.normal_path
    cases type with
    | unrecognized n => rfl
    | create =>
      simp only [Mirror.change, osOpenFile]
      rw [openFile_congr (hn _) (hplain _ (.head _)) (hat _ (.head _))]
    | link | symlink =>
      simp only [Mirror.change, osSymlink, symlink]
      rw [makeEntry_congr (hn _) (hplain _ (.head _)) (hat _ (.head _))]
    | mkdir =>
      simp only [Mirror.change, osMkdir, mkdir]
      rw [makeEntry_congr (hn _) (hplain _ (.head _)) (hat _ (.head _))]
    | rename =>
      simp only [Mirror.change]
      rw [osRename_congr (hn _) (hplain _ (.head _)) (hn _) (hplain _ (.tail _ (.head _)))
        (hat _ (.head _)) (hat _ (.tail _ (.head _)))]
    | rmdir | unlink =>
      simp only [Mirror.change]
      rw [osRemove_congr (hn _) (hplain _ (.head _)) (hat _ (.head _))]
    | setattr =>
      simp only [Mirror.change, osChmod]
      rw [chmod_congr (hn _) (hplain _ (.head _)) (hat _ (.head _))]
    | write =>
      simp only [Mirror.change]
      rw [Mirror.write_congr (hplain _ (.head _)) (hat _ (.head _))]
    | copyFileRange =>
      simp only [Mirror.change]
      rw [Mirror.copyFileRange_congr (hplain _ (.head _)) (hplain _ (.tail _ (.head _)))
        (hat _ (.head _)) (hat _ (.tail _ (.head _)))]

/-- An edit at a path stays below it, and a function that fails makes none. -/
private theorem within_outcome {x : Except OsError Edit} {writes : Set Path}
    (h : ∀ e, x = .ok e → e.Within writes) : (outcome x).1.Within writes := by
  cases x with
  | error err => trivial
  | ok e => exact h e rfl

/-- An edit of one node is within every set with that node, and so is no edit at all. -/
private theorem within_put {e : Edit} {p : Path} {writes : Set Path} (hp : p ∈ writes)
    (h : e = .keep ∨ ∃ node, e = .put p node) : e.Within writes := by
  obtain rfl | ⟨node, rfl⟩ := h
  · trivial
  · exact hp

/-- A request changes nothing but what is below its paths. Without links, its paths are where they
say. This is the second half of its footprint. `RENAME` moves all that is below the old path, so a
single node would not be enough here. -/
theorem Mirror.change_within {e : Edit} {err : Option String} (hplain : m.NoLinks s r)
    (h : m.change proc s r = .ok (e, err)) : e.Within (m.writes r) := by
  have hmem : ∀ p ∈ m.changes r, p ∈ m.writes r := fun p hp => ⟨p, hp, List.prefix_refl p⟩
  have hsub : ∀ p ∈ m.changes r, below p ⊆ m.writes r := fun p hp q hq => ⟨p, hp, hq⟩
  obtain ⟨type, metadata, clock, content⟩ := r
  -- One case for each branch of the switch, with the `_at` lemma of its calls.
  cases metadata with
  | none => cases type <;> cases h
  | some md =>
    have hn := m.normal_path
    cases type with
    | unrecognized n => cases h
    | create =>
      obtain rfl := congrArg Prod.fst (Except.ok.inj h)
      refine within_outcome fun e he => ?_
      obtain ⟨q, hq⟩ := osOpenFile_snd_eq_ok he
      exact within_put (hmem _ (.head _)) (openFile_at (hn _) (hplain _ (.head _)) hq).2
    | link | symlink =>
      obtain rfl := congrArg Prod.fst (Except.ok.inj h)
      refine within_outcome fun e he => ?_
      have hmake := symlink_eq_ok (ok_of_mapError he)
      exact within_put (hmem _ (.head _))
        (.inr ⟨_, makeEntry_at (hn _) (hplain _ (.head _)) hmake⟩)
    | mkdir =>
      obtain rfl := congrArg Prod.fst (Except.ok.inj h)
      exact within_outcome fun e he => within_put (hmem _ (.head _))
        (.inr ⟨_, makeEntry_at (hn _) (hplain _ (.head _)) (ok_of_mapError he)⟩)
    | rename =>
      obtain rfl := congrArg Prod.fst (Except.ok.inj h)
      refine within_outcome fun e he => ?_
      obtain rfl | rfl := osRename_at (hn _) (hplain _ (.head _)) (hn _)
        (hplain _ (.tail _ (.head _))) he
      · trivial
      · exact ⟨hsub _ (.head _), hsub _ (.tail _ (.head _))⟩
    | rmdir | unlink =>
      obtain rfl := congrArg Prod.fst (Except.ok.inj h)
      refine within_outcome fun e he => ?_
      obtain rfl := osRemove_at (hn _) (hplain _ (.head _)) he
      exact hmem _ (.head _)
    | setattr =>
      obtain rfl := congrArg Prod.fst (Except.ok.inj h)
      refine within_outcome fun e he => within_put (hmem _ (.head _)) (.inr ?_)
      exact chmod_at (hn _) (hplain _ (.head _)) (ok_of_mapError he)
    | write =>
      obtain rfl := congrArg Prod.fst (Except.ok.inj h)
      exact within_put (hmem _ (.head _)) (Mirror.write_at (hplain _ (.head _)))
    | copyFileRange =>
      obtain rfl := congrArg Prod.fst (Except.ok.inj h)
      exact within_put (hmem _ (.head _))
        (Mirror.copyFileRange_at (hplain _ (.tail _ (.head _))))

end Locality

section Commute
variable (m : Mirror) (proc : Process)

/-- The tree that `Mirror.Mirror` leaves. -/
def Mirror.apply (t : Tree) (r : Request) : Except Panic Tree :=
  (m.mirror proc t (some r)).map Prod.fst

/-- The tree after two requests in a row. -/
def Mirror.applyBoth (t : Tree) (r r' : Request) : Except Panic Tree := do
  let t' ← m.apply proc t r
  m.apply proc t' r'

/-- The edit of a request. -/
def Mirror.edit (r : Request) (t : Tree) : Edit :=
  match m.change proc t.1 r with
  | .ok (e, _) => e
  | .error _ => .keep

variable {m proc}

/-- `Mirror.Mirror` leaves a tree. Its calls have their own tests, and a failed one changes
nothing. -/
theorem Mirror.edit_allowed (r : Request) (t : Tree) : (m.edit proc r t).Allowed t.1 := by
  unfold Mirror.edit
  split
  · exact Mirror.change_allowed t.2 ‹_›
  · trivial

/-- The tree after a request that does not panic. -/
def Mirror.after (m : Mirror) (proc : Process) (r : Request) (t : Tree) : Tree :=
  ⟨(m.edit proc r t).apply t.1, (Mirror.edit_allowed r t).isTree t.2⟩

/-- A request with metadata either panics in every tree, as its type is unknown, or in none. So
whether two requests can be carried out does not depend on their order, and only the trees have to
be compared. -/
theorem Mirror.apply_cases (m : Mirror) (proc : Process) {r : Request} {md : Metadata}
    (hmd : r.metadata = some md) :
    (∀ t, m.apply proc t r = .error .logPanic) ∨
      ∀ t, m.apply proc t r = .ok (m.after proc r t) := by
  -- The type alone decides, before the tree is looked at.
  by_cases htype : ∃ n, r.type = .unrecognized n
  · left
    intro t
    obtain ⟨n, hn⟩ := htype
    have hchange : m.change proc t.1 r = .error .logPanic := by simp [Mirror.change, hn]
    rw [Mirror.apply, Mirror.mirror_of_error hchange]
    rfl
  · right
    intro t
    obtain ⟨e, err, hchange⟩ : ∃ e err, m.change proc t.1 r = .ok (e, err) := by
      obtain ⟨type, metadata, clock, content⟩ := r
      obtain rfl : metadata = some md := hmd
      cases type with
      | unrecognized n => exact absurd ⟨n, rfl⟩ htype
      | _ => exact ⟨_, _, rfl⟩
    have hedit : m.edit proc r t = e := by simp [Mirror.edit, hchange]
    rw [Mirror.apply, Mirror.mirror_of_ok hchange]
    simp [Except.map, Mirror.after, hedit]

/-- The footprint of a request: it writes below the paths that it changes, and depends on what is
around the paths that it uses. -/
theorem Mirror.localAt (m : Mirror) (proc : Process) {r : Request} {t : Tree}
    (hplain : m.NoLinks t.1 r) :
    LocalAt (fun t : Tree => t.1.get) (m.after proc r) (m.reads r) (m.writes r) t := by
  refine localAt_of_edit (m.edit proc r) (fun t => rfl) Mirror.writes_subset_reads
    (fun t' heq => ?_) ?_
  · unfold Mirror.edit
    rw [Mirror.change_congr hplain heq]
  · unfold Mirror.edit
    split
    · exact Mirror.change_within hplain ‹_›
    · trivial

/-- Requests that are apart commute: both orders leave the same tree. `Apart` compares paths as they
are written, so links on the paths have to be excluded. Without metadata the mirror would panic. -/
theorem apart_commute (m : Mirror) (proc : Process) (t : Tree) (r r' : Request)
    (hmeta : r.metadata.isSome) (hmeta' : r'.metadata.isSome) (hapart : m.Apart r r')
    (hapart' : m.Apart r' r) (hlinks : m.NoLinks t.1 r) (hlinks' : m.NoLinks t.1 r') :
    m.applyBoth proc t r r' = m.applyBoth proc t r' r := by
  obtain ⟨md, hmd⟩ := Option.isSome_iff_exists.mp hmeta
  obtain ⟨md', hmd'⟩ := Option.isSome_iff_exists.mp hmeta'
  unfold Mirror.applyBoth
  rcases m.apply_cases proc hmd with h | h <;>
    rcases m.apply_cases proc hmd' with h' | h'
  · simp only [h, h']
  · simp only [h, h']
    rfl
  · simp only [h, h']
    rfl
  · simp only [h, h']
    -- Neither request panics, so the footprints decide.
    have hcomm := (m.localAt proc hlinks).commute (m.localAt proc hlinks')
      hapart.disjoint hapart'.disjoint (hapart.disjoint.mono_right Mirror.writes_subset_reads)
    exact congrArg Except.ok (Subtype.ext (Store.ext hcomm))

/-- A request of the given type on one or two paths. -/
def pathRequest (type : RequestType) (path : String) (newPath : String := "") : Request :=
  { type, metadata := some { relativePath := path, newRelativePath := newPath, mode := 0o755 } }

/-- `RENAME a c` and `UNLINK b` are apart, so both orders leave the same tree. All the hypotheses
are decided. -/
theorem rename_unlink_commute :
    someMirror.applyBoth someProcess someTree (pathRequest .rename "a" "c")
        (pathRequest .unlink "b") =
      someMirror.applyBoth someProcess someTree (pathRequest .unlink "b")
        (pathRequest .rename "a" "c") :=
  apart_commute someMirror someProcess someTree _ _ rfl rfl (by decide) (by decide) (by decide)
    (by decide)

/-- The conflict check of the request `r` of `name` against the request `r'` of `name'`. -/
def checkAgainst (name : PeerName) (r : Request) (name' : PeerName) (r' : Request) :
    Except Panic Bool :=
  P2p.detectAndResolveConflict
    [{ tid := "t'", initiatorName := name', request := some r' }] (newRequestMessage "t" name r)

/-- There is no conflict either way and `Mirror.Consult` agrees to both requests, but the order
decides what the tree becomes. -/
def Diverge (t : Tree) (r r' : Request) : Prop :=
  checkAgainst "x" r "y" r' = .ok false ∧ checkAgainst "y" r' "x" r = .ok false ∧
    someMirror.consult someProcess t.1 r = .ok (some ack) ∧
    someMirror.consult someProcess t.1 r' = .ok (some ack) ∧
    someMirror.applyBoth someProcess t r r' ≠ someMirror.applyBoth someProcess t r' r

/-- Two orders that can be evaluated and differ at the path. The hypotheses are all computed, so
each example is a list of evaluations. -/
private theorem diverge_at {t : Tree} {r r' : Request} (p : Path)
    (hcheck : checkAgainst "x" r "y" r' = .ok false)
    (hcheck' : checkAgainst "y" r' "x" r = .ok false)
    (hconsult : someMirror.consult someProcess t.1 r = .ok (some ack))
    (hconsult' : someMirror.consult someProcess t.1 r' = .ok (some ack))
    (hsee : (someMirror.applyBoth someProcess t r r').map (fun t => t.1.get p) ≠
      (someMirror.applyBoth someProcess t r' r).map (fun t => t.1.get p)) :
    Diverge t r r' :=
  ⟨hcheck, hcheck', hconsult, hconsult', fun heq => hsee (congrArg _ heq)⟩

/-- The files of `someTree`, with a symbolic link `l` to `a`. -/
def linkTree : Tree := someTree.add ["m"] "l" (.symlink "a")

/-- A request to write the content to the start of the file. -/
def writeRequest (path : String) (content : List UInt8) : Request :=
  { type := .write, metadata := some { relativePath := path }, content := some content }

/-- The conflict rule misses a common source, a path above another one, and a symbolic link: two
renames of `a`, `MKDIR c` with `CREATE c/d`, and two writes to `a`, one of them through `l`. -/
theorem unnoticed_conflicts :
    Diverge someTree (pathRequest .rename "a" "c") (pathRequest .rename "a" "d") ∧
      Diverge someTree (pathRequest .mkdir "c") (pathRequest .create "c/d") ∧
      Diverge linkTree (writeRequest "a" [3]) (writeRequest "l" [4]) :=
  ⟨diverge_at ["m", "c"] (by decide) (by decide) (by decide) (by decide) (by decide),
    diverge_at ["m", "c", "d"] (by decide) (by decide) (by decide) (by decide) (by decide),
    diverge_at ["m", "a"] (by decide) (by decide) (by decide) (by decide) (by decide)⟩

end Commute

end ReplicatedFs
