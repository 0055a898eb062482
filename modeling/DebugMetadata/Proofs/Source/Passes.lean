import DebugMetadata.Proofs.Lists
import DebugMetadata.Proofs.Source.Paths

/-!
# The passes over a path

A path is made absolute, normalized and split by pushing components to a buffer and popping
them off it again.  The buffer is the path of a stack of names all the time.  So the passes
together walk the path: what they leave is the path of the names to which it leads.
-/

namespace DebugMetadata.Source

variable {workingDirectory path buffer name : List UInt8} {names parts : List (List UInt8)}

/-! ## Components -/

theorem bytes_ofSegment (segment : List UInt8) : (Component.ofSegment segment).bytes = segment := by
  unfold Component.ofSegment
  split
  next h => exact h.symm
  next => rfl

theorem exists_of_isAbsolute (h : isAbsolute path = true) : ∃ rest, path = separator :: rest :=
  List.head?_eq_some_iff.mp (beq_iff_eq.mp h)

/-- A path that begins with a single dot is that dot, or a separator stands after it. -/
theorem of_head?_splitOn (h : (path.splitOn separator).head? = some hereSegment) :
    path = hereSegment ∨ ∃ rest, path = hereSegment ++ separator :: rest := by
  obtain ⟨others, hothers⟩ := List.head?_eq_some_iff.mp h
  have hpath : [separator].intercalate (path.splitOn separator) = path :=
    List.intercalate_splitOn separator
  rw [hothers] at hpath
  cases others with
  | nil => exact .inl (hpath.symm.trans List.intercalate_singleton)
  | cons next others =>
      rw [List.intercalate_cons_cons, List.append_assoc] at hpath
      exact .inr ⟨_, hpath.symm⟩

/-- What a path is anchored with does not move. -/
theorem segments_body (path : List UInt8) : segments (body path) = segments path := by
  unfold body anchor?
  by_cases habsolute : isAbsolute path = true
  · obtain ⟨rest, rfl⟩ := exists_of_isAbsolute habsolute
    rw [if_pos habsolute]
    exact (segments_separator_cons rest).symm
  rw [if_neg habsolute]
  by_cases hhere : (path.splitOn separator).head? = some hereSegment
  · rw [if_pos hhere]
    rcases of_head?_splitOn hhere with rfl | ⟨rest, rfl⟩
    · decide
    · change segments (separator :: rest) = _
      rw [segments_append, segments_separator_cons]
      rfl
  · rw [if_neg hhere]

theorem components_separator_cons (path : List UInt8) :
    components (separator :: path) = .root :: (segments path).map .ofSegment := rfl

theorem ofSegment_moves (segment : List UInt8) :
    (Component.ofSegment segment != .root && Component.ofSegment segment != .here) = true := by
  unfold Component.ofSegment
  split <;> rfl

theorem filter_components (path : List UInt8) :
    (components path).filter (fun c => c != .root && c != .here) =
      (segments path).map .ofSegment := by
  have hanchor : (anchor? path).toList.filter (fun c => c != .root && c != .here) = [] := by
    unfold anchor?
    split
    · rfl
    · split <;> rfl
  rw [components, segments_body, List.filter_append, hanchor, List.nil_append,
    List.filter_eq_self]
  intro c hc
  obtain ⟨segment, -, rfl⟩ := List.mem_map.mp hc
  exact ofSegment_moves segment

/-! ## The absolute path -/

theorem segments_push (hpath : isAbsolute path = false) (buffer : List UInt8) :
    segments (push buffer path) = segments buffer ++ segments path := by
  rw [push, if_neg (Bool.eq_false_iff.mp hpath)]
  split
  next hbuffer =>
    rcases hbuffer with rfl | hlast
    · rfl
    · obtain ⟨before, rfl⟩ := List.getLast?_eq_some_iff.mp hlast
      rw [List.append_assoc, List.singleton_append, segments_append, segments_append,
        segments_nil, List.append_nil]
  next => exact segments_append buffer path

theorem isAbsolute_push (h : isAbsolute buffer = true) (path : List UInt8) :
    isAbsolute (push buffer path) = true := by
  have hne : buffer ≠ [] := by
    rintro rfl
    cases h
  unfold push
  split
  · assumption
  · split
    · exact (isAbsolute_append hne _).trans h
    · exact (isAbsolute_append hne _).trans h

theorem foldl_push (hparts : ∀ part ∈ parts, moves part = true ∧ separator ∉ part)
    (hbuffer : isAbsolute buffer = true) :
    let joined := (parts.map .ofSegment).foldl (fun b c => push b (Component.bytes c)) buffer
    segments joined = segments buffer ++ parts ∧ isAbsolute joined = true := by
  induction parts generalizing buffer with
  | nil => exact ⟨(List.append_nil _).symm, hbuffer⟩
  | cons part rest ih =>
      obtain ⟨⟨hmoves, hnot⟩, hrest⟩ := List.forall_mem_cons.mp hparts
      obtain ⟨hsegments, habsolute⟩ := ih hrest (isAbsolute_push hbuffer part)
      intro joined
      have hjoined : joined = (rest.map .ofSegment).foldl
          (fun b c => push b (Component.bytes c)) (push buffer part) := by
        simp only [joined, List.map_cons, List.foldl_cons, bytes_ofSegment]
      rw [hjoined]
      refine ⟨?_, habsolute⟩
      rw [hsegments, segments_push (isAbsolute_eq_false hnot), segments_eq_singleton hmoves hnot,
        List.append_assoc]
      rfl

theorem start_of_isAbsolute (path : List UInt8) :
    segments (rootOf path) = [] ∧ isAbsolute (rootOf path) = true := by
  unfold rootOf
  split <;> decide

theorem start_of_workingDirectory (workingDirectory : List UInt8) :
    segments (push [separator] workingDirectory) = segments workingDirectory ∧
      isAbsolute (push [separator] workingDirectory) = true := by
  refine ⟨?_, isAbsolute_push (by decide) workingDirectory⟩
  cases h : isAbsolute workingDirectory with
  | true => rw [push, if_pos h]
  | false =>
      rw [segments_push h]
      rfl

/-- The absolute path goes the way of the working directory, unless the path itself is
absolute, and then the way of the path. -/
theorem absolute_spec (workingDirectory path : List UInt8) :
    segments (absolute workingDirectory path) =
        (if isAbsolute path then [] else segments workingDirectory) ++ segments path ∧
      isAbsolute (absolute workingDirectory path) = true := by
  obtain ⟨start, hstart⟩ : ∃ start,
      start = if isAbsolute path then rootOf path else push [separator] workingDirectory := ⟨_, rfl⟩
  have hbegins : segments start =
      (if isAbsolute path then [] else segments workingDirectory) ∧ isAbsolute start = true := by
    rw [hstart]
    split
    · exact start_of_isAbsolute path
    · exact start_of_workingDirectory workingDirectory
  obtain ⟨hsegments, habsolute⟩ := foldl_push
    (fun part (hpart : part ∈ segments path) => of_mem_segments hpart) hbegins.2
  rw [absolute, filter_components, ← hstart, ← hbegins.1]
  split
  · refine ⟨?_, isAbsolute_push habsolute []⟩
    rw [segments_push rfl, hsegments, segments_nil, List.append_nil]
  · exact ⟨hsegments, habsolute⟩

/-! ## The buffer as a stack -/

theorem directoryPath_eq (hne : names ≠ []) :
    directoryPath names = names.flatMap ([separator] ++ ·) := by
  cases names with
  | nil => exact absurd rfl hne
  | cons first rest =>
      rw [directoryPath, intercalate_cons, List.flatMap_cons, List.append_assoc]
      rfl

theorem push_directoryPath (hnames : ∀ name ∈ names, IsName name ∧ separator ∉ name)
    (hnot : separator ∉ name) :
    push (directoryPath names) name = directoryPath (names ++ [name]) := by
  rw [push, if_neg (Bool.eq_false_iff.mp (isAbsolute_eq_false hnot))]
  rcases List.eq_nil_or_concat names with rfl | ⟨before, last, rfl⟩
  · rw [if_pos (.inr rfl), List.nil_append, directoryPath, directoryPath,
      List.intercalate_singleton]
    rfl
  · rw [List.concat_eq_append] at hnames ⊢
    obtain ⟨hlast, hnotLast⟩ := hnames last (List.mem_append_right _ List.mem_cons_self)
    have hne : before ++ [last] ≠ [] := List.concat_ne_nil last before
    have hend : (directoryPath (before ++ [last])).getLast? ≠ some separator := by
      rw [directoryPath_eq hne, List.flatMap_append, List.flatMap_singleton, ← List.append_assoc,
        List.getLast?_append_of_ne_nil _ hlast.ne_nil]
      exact fun h => hnotLast (List.mem_of_getLast? h)
    rw [if_neg (by rintro (h | h); exacts [List.cons_ne_nil _ _ h, hend h]),
      directoryPath_eq (List.concat_ne_nil name _), List.flatMap_append, List.flatMap_singleton,
      ← directoryPath_eq hne]
    rfl

theorem trimmed_eq_self (h : ∀ part ∈ parts, moves part = true) : trimmed parts = parts := by
  rcases List.eq_nil_or_concat parts with rfl | ⟨before, last, rfl⟩
  · rfl
  · rw [List.concat_eq_append] at h ⊢
    have hlast := h last (List.mem_append_right _ List.mem_cons_self)
    simp [trimmed, hlast]

theorem parent?_directoryPath
    (hnames : ∀ part ∈ names ++ [name], IsName part ∧ separator ∉ part) :
    parent? (directoryPath (names ++ [name])) = some (directoryPath names) := by
  have hmoves : ∀ part ∈ names ++ [name], moves part = true :=
    fun part hpart => (hnames part hpart).1.moves
  have hsplit : (body (directoryPath (names ++ [name]))).splitOn separator = names ++ [name] :=
    List.splitOn_intercalate separator (fun part hpart => (hnames part hpart).2)
      (List.concat_ne_nil name names)
  have hdropped : trimmed names = names :=
    trimmed_eq_self fun part hpart => hmoves part (List.mem_append_left _ hpart)
  rw [parent?, hsplit, trimmed_eq_self hmoves]
  split
  next h _ => exact absurd h (List.concat_ne_nil name names)
  next h _ => exact absurd h (List.concat_ne_nil name names)
  next => rw [List.dropLast_concat, hdropped]; rfl

theorem pop_directoryPath (hnames : ∀ name ∈ names, IsName name ∧ separator ∉ name) :
    pop (directoryPath names) = directoryPath names.dropLast := by
  rcases List.eq_nil_or_concat names with rfl | ⟨before, last, rfl⟩
  · decide
  · rw [List.concat_eq_append] at hnames ⊢
    rw [pop, parent?_directoryPath hnames, List.dropLast_concat]
    rfl

theorem fileName?_directoryPath (hnames : ∀ name ∈ names, IsName name ∧ separator ∉ name) :
    fileName? (directoryPath names) = names.getLast? := by
  have hsegments := segments_directoryPath hnames
  rw [directoryPath, segments_separator_cons] at hsegments
  rw [fileName?, directoryPath, components_separator_cons, hsegments]
  rcases List.eq_nil_or_concat names with rfl | ⟨before, last, rfl⟩
  · rfl
  · rw [List.concat_eq_append] at hnames ⊢
    obtain ⟨hlast, -⟩ := hnames last (List.mem_append_right _ List.mem_cons_self)
    have hofSegment : Component.ofSegment last = .name last := if_neg hlast.ne_parent
    rw [List.map_append, List.map_singleton, hofSegment, ← List.cons_append, List.getLast?_concat,
      List.getLast?_concat]

/-! ## The normal path -/

theorem follow_directoryPath (hnames : ∀ name ∈ names, IsName name ∧ separator ∉ name)
    {part : List UInt8} (hnot : separator ∉ part) :
    follow (directoryPath names) (.ofSegment part) = directoryPath (descend names part) := by
  unfold Component.ofSegment descend
  split
  · exact pop_directoryPath hnames
  · exact push_directoryPath hnames hnot

theorem isName_of_mem_descend (hnames : ∀ name ∈ names, IsName name ∧ separator ∉ name)
    {part : List UInt8} (hmoves : moves part = true) (hnot : separator ∉ part) :
    ∀ name ∈ descend names part, IsName name ∧ separator ∉ name := by
  intro name hname
  unfold descend at hname
  split at hname
  next => exact hnames name (List.dropLast_subset names hname)
  next hparent =>
    rcases List.mem_append.mp hname with hname | hname
    · exact hnames name hname
    · rw [List.mem_singleton.mp hname]
      obtain ⟨hempty, hhere⟩ := moves_iff.mp hmoves
      exact ⟨⟨hempty, hhere, hparent⟩, hnot⟩

theorem foldl_follow (hparts : ∀ part ∈ parts, moves part = true ∧ separator ∉ part)
    (hnames : ∀ name ∈ names, IsName name ∧ separator ∉ name) :
    (parts.map .ofSegment).foldl follow (directoryPath names) =
      directoryPath (parts.foldl descend names) := by
  induction parts generalizing names with
  | nil => rfl
  | cons part rest ih =>
      obtain ⟨⟨hmoves, hnot⟩, hrest⟩ := List.forall_mem_cons.mp hparts
      rw [List.map_cons, List.foldl_cons, List.foldl_cons, follow_directoryPath hnames hnot]
      exact ih hrest (isName_of_mem_descend hnames hmoves hnot)

theorem normalize_eq (h : isAbsolute path = true) :
    normalize path = directoryPath ((segments path).foldl descend []) := by
  obtain ⟨rest, rfl⟩ := exists_of_isAbsolute h
  rw [normalize, components_separator_cons, segments_separator_cons]
  change ((segments rest).map .ofSegment).foldl follow (directoryPath []) = _
  exact foldl_follow (fun _ => of_mem_segments) nofun

/-- The passes walk the path: the normal path is that of the names to which the path leads. -/
theorem normalize_absolute (workingDirectory path : List UInt8) :
    normalize (absolute workingDirectory path) =
      directoryPath (resolve workingDirectory path) := by
  obtain ⟨hsegments, habsolute⟩ := absolute_spec workingDirectory path
  rw [normalize_eq habsolute, hsegments, resolve]

/-- The file name of the normal path is the last of the names. -/
theorem fileName?_normalize (workingDirectory path : List UInt8) :
    fileName? (normalize (absolute workingDirectory path)) =
      (resolve workingDirectory path).getLast? := by
  rw [normalize_absolute, fileName?_directoryPath fun _ => isName_of_mem_resolve]

/-- The parent of the normal path is that of the other names. -/
theorem parent?_normalize (h : resolve workingDirectory path = names ++ [name]) :
    parent? (normalize (absolute workingDirectory path)) = some (directoryPath names) := by
  rw [normalize_absolute, h, parent?_directoryPath]
  exact fun part hpart => isName_of_mem_resolve (h ▸ hpart)

end DebugMetadata.Source
