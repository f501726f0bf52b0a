import ReplicatedFs.Library.Posix.Os

/-!
# `ReplicatedFs.Library.Posix.Names`: relative paths made of entry names

An `EntryName` is a name that a directory entry can have. `slashPath` is the text of the path
through some entries, from a directory that is not named. On such texts `filepath.Join` is the
concatenation of the names (`join_slashPath`), and the text determines the names
(`slashPath_injective`).
-/

set_option autoImplicit false

namespace Library.Posix

/-- A name that a directory entry can have. -/
structure EntryName where
  name : Name
  ne_empty : name ≠ ""
  no_slash : '/' ∉ name.toList
  ne_dot : name ≠ "."
  ne_dotdot : name ≠ ".."
  deriving DecidableEq

/-- The names themselves. -/
def EntryName.values (names : List EntryName) : Path := names.map EntryName.name

/-- The path through the entries, as a text. It is empty for no names. -/
def slashPath (names : List EntryName) : String :=
  String.intercalate "/" (EntryName.values names)

/-- Paths of names are joined as their texts are. This is what lets a path of names be split at a
directory. -/
@[simp] theorem EntryName.values_append (p q : List EntryName) :
    EntryName.values (p ++ q) = EntryName.values p ++ EntryName.values q := List.map_append

/-- Paths of names with the same texts are the same path, since a name carries nothing but its
text. -/
theorem EntryName.values_injective : Function.Injective EntryName.values := by
  refine List.map_injective_iff.mpr fun n m h => ?_
  cases n
  cases m
  cases h
  rfl

/-- The root is named by the empty text, as a loopback node does it. -/
@[simp] theorem slashPath_nil : slashPath [] = "" := rfl

/-- An entry of the root is named by its own name, with no slash in front. -/
@[simp] theorem slashPath_singleton (n : EntryName) : slashPath [n] = n.name := by
  simp [slashPath, EntryName.values]

/-- Splitting the text gives the names back. This needs that a name has no slash in it and is not
empty. -/
theorem components_slashPath (p : List EntryName) :
    components (slashPath p) = EntryName.values p := by
  cases p with
  | nil => rfl
  | cons n p =>
    -- No name has a slash, so the text is split where it was joined.
    have hsplit : (slashPath (n :: p)).toList.splitOn '/' =
        (EntryName.values (n :: p)).map String.toList := by
      rw [slashPath, String.toList_intercalate]
      refine List.splitOn_intercalate '/' ?_ (by simp [EntryName.values])
      intro l hl
      obtain ⟨_, hname, rfl⟩ := List.mem_map.mp hl
      obtain ⟨m, -, rfl⟩ := List.mem_map.mp hname
      exact m.no_slash
    rw [components, hsplit, List.map_map]
    simp only [Function.comp_def, String.ofList_toList, List.map_id', List.filter_eq_self]
    intro name hname
    obtain ⟨m, -, rfl⟩ := List.mem_map.mp hname
    exact decide_eq_true m.ne_empty

/-- The text of one name is that name: there is nothing in it to split at. -/
@[simp] theorem components_name (n : EntryName) : components n.name = [n.name] := by
  rw [← slashPath_singleton, components_slashPath]
  simp [EntryName.values]

/-- The text determines the names, so that two paths with one text are one path. -/
theorem slashPath_injective : Function.Injective slashPath := by
  intro p q h
  have hcomp := congrArg components h
  rw [components_slashPath, components_slashPath] at hcomp
  exact EntryName.values_injective hcomp

/-- The root is the only path that is named by the empty text, since a name is not empty. -/
theorem slashPath_eq_empty {p : List EntryName} : slashPath p = "" ↔ p = [] :=
  slashPath_injective.eq_iff' slashPath_nil

/-- The path of some names does not start with a slash. It is taken as a relative one therefore. -/
theorem slashPath_head (p : List EntryName) : (slashPath p).toList.head? ≠ some '/' := by
  cases p with
  | nil => simp
  | cons n p =>
    -- The text starts with the first name, which is not empty.
    have hne : n.name.toList ≠ [] := by simpa using n.ne_empty
    obtain ⟨rest, hrest⟩ : ∃ rest, (slashPath (n :: p)).toList = n.name.toList ++ rest := by
      rw [slashPath, String.toList_intercalate]
      cases p with
      | nil => exact ⟨[], by simp [EntryName.values, List.intercalate]⟩
      | cons m p => exact ⟨_, rfl⟩
    rw [hrest, List.head?_append_of_ne_nil _ hne]
    intro h
    exact n.no_slash (List.mem_of_mem_head? h)

/-- `filepath.Clean` keeps entry names, as none of them is `.` or `..`. -/
theorem foldl_cleanName (rooted : Bool) (p : List EntryName) (acc : Path) :
    (EntryName.values p).foldl (cleanName rooted) acc = acc ++ EntryName.values p := by
  induction p generalizing acc with
  | nil => simp [EntryName.values]
  | cons n p ih =>
    have hstep : cleanName rooted acc n.name = acc ++ [n.name] := by
      rw [cleanName, if_neg n.ne_dot, if_neg n.ne_dotdot]
    show (EntryName.values p).foldl (cleanName rooted) (cleanName rooted acc n.name) = _
    rw [hstep, ih, List.append_assoc]
    rfl

/-- `filepath.Join` of elements that are not empty: it puts slashes between them, and has nothing to
clean. -/
private theorem join_of_ne_nil (q : List EntryName) (qs : List (List EntryName))
    (hne : ∀ p ∈ q :: qs, p ≠ []) :
    join ((q :: qs).map slashPath) = slashPath (q :: qs).flatten := by
  -- `Join` leaves out empty elements, and there is none.
  have hfilter : ((q :: qs).map slashPath).filter (· ≠ "") = (q :: qs).map slashPath := by
    rw [List.filter_eq_self]
    intro text htext
    obtain ⟨p, hp, rfl⟩ := List.mem_map.mp htext
    exact decide_eq_true (mt slashPath_eq_empty.mp (hne p hp))
  have hnames : (slashPath q :: qs.map slashPath).flatMap components =
      EntryName.values (q :: qs).flatten := by
    rw [← List.map_cons, List.flatMap_map]
    simp only [components_slashPath]
    rw [EntryName.values, List.map_flatten]
    rfl
  have hq : EntryName.values (q :: qs).flatten ≠ [] := by
    simp [EntryName.values, hne q (by simp)]
  unfold join
  rw [hfilter]
  simp only [List.map_cons, slashPath_head, decide_false, Bool.false_eq_true, if_false, hnames,
    foldl_cleanName, List.nil_append, hq]
  rfl

/-- `filepath.Join` of two paths is the text of the joined path, also when one of them is the
root. -/
theorem join_slashPath (p q : List EntryName) :
    join [slashPath p, slashPath q] = slashPath (p ++ q) := by
  -- `filepath.Join` drops the empty elements.
  by_cases hp : p = []
  · subst hp
    by_cases hq : q = []
    · subst hq
      rfl
    · have hdrop : join ["", slashPath q] = join [slashPath q] := by simp [join]
      have hjoin := join_of_ne_nil q [] (by simpa using hq)
      simpa [hdrop] using hjoin
  · by_cases hq : q = []
    · subst hq
      have hdrop : join [slashPath p, ""] = join [slashPath p] := by simp [join, List.filter_cons]
      have hjoin := join_of_ne_nil p [] (by simpa using hp)
      simpa [hdrop] using hjoin
    · have hjoin := join_of_ne_nil p [q] (by simp [hp, hq])
      simpa using hjoin

end Library.Posix
