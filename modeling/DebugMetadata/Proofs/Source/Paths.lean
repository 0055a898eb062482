import DebugMetadata.Source.Path
import Mathlib.Data.List.Basic

/-!
# Paths by their parts

A path is walked from the root along its parts, what stands between its separators.
The names on the way are a stack: a name goes on it, the parent takes one off it unless it
is empty, and a part that does not move leaves it alone.
-/

namespace DebugMetadata.Source

variable {workingDirectory path : List UInt8} {parts names stack : List (List UInt8)}
  {name : List UInt8}

/-- The path that is walked.  A relative path is joined to the working directory. -/
def absolutePath (workingDirectory path : List UInt8) : List UInt8 :=
  if path.head? = some separator then path else workingDirectory ++ separator :: path

/-- The stack of names after one more segment.  The parent of the root is the root. -/
def descend (stack : List (List UInt8)) (segment : List UInt8) : List (List UInt8) :=
  if segment = parentSegment then stack.dropLast else stack ++ [segment]

/-- The names that lead from the root to what a path names, with a relative path taken from
the working directory. -/
def resolve (workingDirectory path : List UInt8) : List (List UInt8) :=
  let start := if isAbsolute path then [] else segments workingDirectory
  (start ++ segments path).foldl descend []

/-- The absolute path of a directory given by its names. -/
def directoryPath (names : List (List UInt8)) : List UInt8 :=
  separator :: [separator].intercalate names

/-- The parts have no separators in them, and with separators between them they are the
path. -/
structure IsSplit (path : List UInt8) (parts : List (List UInt8)) : Prop where
  intercalate : [separator].intercalate parts = path
  ne_nil : parts ≠ []
  not_mem : ∀ part ∈ parts, separator ∉ part

/-- A name: a part that is not empty and neither a single dot nor two dots. -/
structure IsName (part : List UInt8) : Prop where
  ne_nil : part ≠ []
  ne_here : part ≠ hereSegment
  ne_parent : part ≠ parentSegment

/-- From one stack of names the parts lead to another. -/
inductive Walk : List (List UInt8) → List (List UInt8) → List (List UInt8) → Prop where
  | done (stack : List (List UInt8)) : Walk stack [] stack
  | empty {stack rest result : List (List UInt8)} :
      Walk stack rest result → Walk stack ([] :: rest) result
  | here {stack rest result : List (List UInt8)} :
      Walk stack rest result → Walk stack (hereSegment :: rest) result
  | parent {stack rest result : List (List UInt8)} (top : List UInt8) :
      Walk stack rest result → Walk (stack ++ [top]) (parentSegment :: rest) result
  /-- The parent of the root is the root. -/
  | root {rest result : List (List UInt8)} :
      Walk [] rest result → Walk [] (parentSegment :: rest) result
  | name {stack rest result : List (List UInt8)} {part : List UInt8} :
      IsName part → Walk (stack ++ [part]) rest result →
      Walk stack (part :: rest) result

/-- The path leads from the root to the names. -/
def LeadsTo (workingDirectory path : List UInt8) (names : List (List UInt8)) : Prop :=
  ∃ parts, IsSplit (absolutePath workingDirectory path) parts ∧
    Walk [] parts names

/-! ## Parts -/

theorem not_mem_of_mem_splitOn {part : List UInt8}
    (h : part ∈ path.splitOn separator) : separator ∉ part := by
  induction path generalizing part with
  | nil =>
      rw [List.splitOn_nil, List.mem_singleton] at h
      rw [h]
      exact List.not_mem_nil
  | cons b rest ih =>
      rw [List.splitOn_cons_eq_if_modifyHead] at h
      split at h
      next =>
        rcases List.mem_cons.mp h with rfl | h
        · exact List.not_mem_nil
        · exact ih h
      next hb =>
        cases hrest : rest.splitOn separator with
        | nil => exact absurd hrest (List.splitOn_ne_nil separator rest)
        | cons first others =>
            rw [hrest] at h ih
            rcases List.mem_cons.mp h with rfl | h
            · intro hmem
              rcases List.mem_cons.mp hmem with rfl | hmem
              · exact hb (beq_self_eq_true separator)
              · exact ih List.mem_cons_self hmem
            · exact ih (List.mem_cons_of_mem first h)

theorem isSplit_iff : IsSplit path parts ↔ parts = path.splitOn separator := by
  constructor
  · rintro ⟨rfl, hne, hnot⟩
    exact (List.splitOn_intercalate separator hnot hne).symm
  · rintro rfl
    exact ⟨List.intercalate_splitOn separator, List.splitOn_ne_nil separator path,
      fun _ => not_mem_of_mem_splitOn⟩

theorem moves_iff : moves name = true ↔ name ≠ [] ∧ name ≠ hereSegment := by
  rw [moves, Bool.and_eq_true, bne_iff_ne, bne_iff_ne]

theorem IsName.moves (h : IsName name) : moves name = true := moves_iff.mpr ⟨h.ne_nil, h.ne_here⟩

theorem segments_eq (path : List UInt8) : segments path = (path.splitOn separator).filter moves :=
  rfl

theorem segments_nil : segments [] = [] := rfl

theorem segments_append (a b : List UInt8) :
    segments (a ++ separator :: b) = segments a ++ segments b := by
  rw [segments_eq, List.splitOn_append_cons_self, List.filter_append]
  rfl

theorem segments_separator_cons (path : List UInt8) :
    segments (separator :: path) = segments path := by
  rw [← List.nil_append (separator :: path), segments_append, segments_nil, List.nil_append]

theorem segments_eq_singleton (hmoves : moves name = true) (hnot : separator ∉ name) :
    segments name = [name] := by
  rw [segments_eq, List.splitOn_eq_singleton hnot, List.filter_cons_of_pos hmoves]
  rfl

theorem segments_name (hname : IsName name) (hnot : separator ∉ name) : segments name = [name] :=
  segments_eq_singleton hname.moves hnot

/-- A segment moves and has no separator in it. -/
theorem of_mem_segments {segment : List UInt8} (h : segment ∈ segments path) :
    moves segment = true ∧ separator ∉ segment := by
  rw [segments_eq, List.mem_filter] at h
  exact ⟨h.2, not_mem_of_mem_splitOn h.1⟩

theorem isAbsolute_append (hpath : path ≠ []) (rest : List UInt8) :
    isAbsolute (path ++ rest) = isAbsolute path := by
  rw [isAbsolute, List.head?_append_of_ne_nil path hpath, isAbsolute]

theorem isAbsolute_eq_false (hnot : separator ∉ path) : isAbsolute path = false :=
  beq_eq_false_iff_ne.mpr fun hhead => hnot (List.mem_of_head? hhead)

theorem resolve_eq (workingDirectory path : List UInt8) : resolve workingDirectory path =
    (segments (absolutePath workingDirectory path)).foldl descend [] := by
  unfold resolve isAbsolute absolutePath
  by_cases habsolute : path.head? = some separator
  · simp [habsolute]
  · simp [habsolute, segments_append]

/-! ## Walks -/

theorem walk_iff : Walk stack parts names ↔
    names = (parts.filter moves).foldl descend stack := by
  constructor
  · intro h
    induction h with
    | done stack => rfl
    | empty _ ih => exact ih
    | here _ ih => exact ih
    | parent top _ ih =>
        rw [ih, List.filter_cons_of_pos (by decide), List.foldl_cons, descend, if_pos rfl,
          List.dropLast_concat]
    | root _ ih => exact ih
    | name hname _ ih =>
        rw [ih, List.filter_cons_of_pos hname.moves, List.foldl_cons, descend,
          if_neg hname.ne_parent]
  · rintro rfl
    induction parts generalizing stack with
    | nil => exact .done stack
    | cons part rest ih =>
        by_cases hempty : part = []
        · subst hempty
          exact .empty ih
        by_cases hhere : part = hereSegment
        · subst hhere
          exact .here ih
        rw [List.filter_cons_of_pos (moves_iff.mpr ⟨hempty, hhere⟩), List.foldl_cons, descend]
        by_cases hparent : part = parentSegment
        · subst hparent
          rw [if_pos rfl]
          rcases List.eq_nil_or_concat stack with rfl | ⟨stack, top, rfl⟩
          · exact .root ih
          · rw [List.concat_eq_append, List.dropLast_concat]
            exact .parent top ih
        · rw [if_neg hparent]
          exact .name ⟨hempty, hhere, hparent⟩ ih

theorem leadsTo_iff : LeadsTo workingDirectory path names ↔
    names = resolve workingDirectory path := by
  unfold LeadsTo
  simp only [isSplit_iff, exists_eq_left, walk_iff, resolve_eq, segments_eq]

/-! ## Names -/

/-- A walk along names keeps each of them. -/
theorem foldl_descend (hnames : ∀ name ∈ names, IsName name) (stack : List (List UInt8)) :
    names.foldl descend stack = stack ++ names := by
  induction names generalizing stack with
  | nil => exact (List.append_nil stack).symm
  | cons name rest ih =>
      obtain ⟨hname, hrest⟩ := List.forall_mem_cons.mp hnames
      rw [List.foldl_cons, descend, if_neg hname.ne_parent, ih hrest, List.append_assoc]
      rfl

theorem mem_foldl_descend (h : name ∈ parts.foldl descend stack) :
    name ∈ stack ∨ name ∈ parts ∧ name ≠ parentSegment := by
  induction parts generalizing stack with
  | nil => exact .inl h
  | cons part rest ih =>
      rw [List.foldl_cons] at h
      rcases ih h with h | ⟨h, hparent⟩
      · unfold descend at h
        split at h
        next => exact .inl (List.dropLast_subset stack h)
        next hparent =>
          rcases List.mem_append.mp h with h | h
          · exact .inl h
          · rw [List.mem_singleton.mp h]
            exact .inr ⟨List.mem_cons_self, hparent⟩
      · exact .inr ⟨List.mem_cons_of_mem part h, hparent⟩

/-- A path leads to names only. -/
theorem isName_of_mem_resolve (h : name ∈ resolve workingDirectory path) :
    IsName name ∧ separator ∉ name := by
  rw [resolve_eq] at h
  rcases mem_foldl_descend h with h | ⟨h, hparent⟩
  · cases h
  · obtain ⟨hmoves, hnot⟩ := of_mem_segments h
    obtain ⟨hempty, hhere⟩ := moves_iff.mp hmoves
    exact ⟨⟨hempty, hhere, hparent⟩, hnot⟩

/-- The path of a directory has its names as its parts. -/
theorem segments_directoryPath (hnames : ∀ name ∈ names, IsName name ∧ separator ∉ name) :
    segments (directoryPath names) = names := by
  have hintercalate : segments ([separator].intercalate names) = names := by
    induction names with
    | nil => rfl
    | cons name rest ih =>
        obtain ⟨⟨hname, hnot⟩, hrest⟩ := List.forall_mem_cons.mp hnames
        cases rest with
        | nil => rw [List.intercalate_singleton, segments_name hname hnot]
        | cons next rest =>
            rw [List.intercalate_cons_cons, List.append_assoc, List.singleton_append,
              segments_append, segments_name hname hnot, ih hrest]
            rfl
  rw [directoryPath, ← List.nil_append (separator :: _), segments_append, hintercalate]
  rfl

end DebugMetadata.Source
