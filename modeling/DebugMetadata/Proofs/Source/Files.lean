import DebugMetadata.Proofs.Source.Passes
import DebugMetadata.Proofs.Text.Utf8
import DebugMetadata.Source.File

/-!
# Source files and their paths

A source file is the lenient reading of the names that its path leads to.  Reading does not
touch the separators, so it can be done name by name, and what is read of a name is a name
again.  So the recorded path leads to itself.
-/

namespace DebugMetadata

open Text.Utf8 (decode encode text ofString text_ofString toList_text)

/-- A name within a directory. -/
structure IsFileName (name : String) : Prop where
  ne_empty : name ≠ ""
  not_mem : '/' ∉ name.toList
  ne_here : name ≠ "."
  ne_parent : name ≠ ".."

namespace Source

variable {names : List (List UInt8)} {name : List UInt8}

/-! ## Reading names -/

theorem decode_separator (bytes rest : List UInt8) :
    decode (bytes ++ separator :: rest) = decode bytes ++ '/' :: decode rest :=
  Text.Utf8.decode_ascii (by decide)

theorem decode_directoryPath (names : List (List UInt8)) :
    decode (directoryPath names) = '/' :: ['/'].intercalate (names.map decode) := by
  rw [directoryPath, ← List.nil_append (separator :: _), decode_separator,
    map_intercalate rfl decode_separator]
  rfl

theorem text_separator (bytes rest : List UInt8) :
    text (bytes ++ separator :: rest) = text bytes ++ "/" ++ text rest := by
  rw [← String.toList_inj, String.toList_append, String.toList_append, toList_text, toList_text,
    toList_text, decode_separator, List.append_assoc]
  rfl

theorem text_directoryPath (names : List (List UInt8)) :
    text (directoryPath names) = "/" ++ "/".intercalate (names.map text) := by
  have htext : String.toList ∘ text = decode := funext toList_text
  rw [← String.toList_inj, toList_text, decode_directoryPath, String.toList_append,
    String.toList_intercalate, List.map_map, htext]
  rfl

/-- A separator between the two texts makes them the text of the whole path. -/
theorem text_directory_append (hnames : ∀ name ∈ names, IsName name) (name : List UInt8) :
    text (directoryPath names) ++ (if text (directoryPath names) = "/" then "" else "/") ++
      text name = text (directoryPath (names ++ [name])) := by
  cases names with
  | nil =>
      rw [List.nil_append, text_directoryPath, text_directoryPath, List.map_singleton,
        String.intercalate_singleton]
      rfl
  | cons first rest =>
      have hne : text (directoryPath (first :: rest)) ≠ "/" := by
        intro hroot
        have hdecode : decode (directoryPath (first :: rest)) = ['/'] :=
          Text.Utf8.decode_eq_of_text_eq hroot
        have hbytes := Text.Utf8.eq_of_decode_eq (by simp) hdecode
        have hempty : [separator].intercalate (first :: rest) = [] := (List.cons.inj hbytes).2
        rw [intercalate_cons, List.append_eq_nil_iff] at hempty
        exact (hnames first List.mem_cons_self).ne_nil hempty.1
      rw [if_neg hne, ← text_separator, directoryPath, directoryPath,
        intercalate_concat (List.cons_ne_nil first rest)]
      rfl

/-- What is read of a name is a name. -/
theorem isFileName_text (h : IsName name) (hnot : separator ∉ name) : IsFileName (text name) where
  ne_empty htext := by
    have hdecode : decode name = [] := Text.Utf8.decode_eq_of_text_eq htext
    exact h.ne_nil (Text.Utf8.decode_eq_nil_iff.mp hdecode)
  not_mem hmem := by
    rw [toList_text] at hmem
    obtain ⟨b, hb, hsame⟩ := Text.Utf8.exists_of_mem_decode (by decide) (by decide) hmem
    have hseparator : b = separator := UInt8.toNat_inj.mp hsame
    exact hnot (hseparator ▸ hb)
  ne_here htext := by
    have hdecode : decode name = ['.'] := Text.Utf8.decode_eq_of_text_eq htext
    exact h.ne_here (Text.Utf8.eq_of_decode_eq (by simp) hdecode)
  ne_parent htext := by
    have hdecode : decode name = ['.', '.'] := Text.Utf8.decode_eq_of_text_eq htext
    exact h.ne_parent (Text.Utf8.eq_of_decode_eq (by simp) hdecode)

/-- What is written of a name is a name. -/
theorem isName_ofString {name : String} (h : IsFileName name) : IsName (ofString name) where
  ne_nil hbytes := by
    apply h.ne_empty
    rw [← text_ofString name, hbytes]
    decide
  ne_here hbytes := by
    apply h.ne_here
    rw [← text_ofString name, hbytes]
    decide
  ne_parent hbytes := by
    apply h.ne_parent
    rw [← text_ofString name, hbytes]
    decide

theorem separator_not_mem_ofString {name : String} (h : IsFileName name) :
    separator ∉ ofString name := by
  intro hmem
  obtain ⟨before, after, hbytes⟩ := List.append_of_mem hmem
  have hread : name.toList = decode before ++ '/' :: decode after := by
    rw [← decode_separator, ← hbytes, ofString, Text.Utf8.decode_encode]
  apply h.not_mem
  rw [hread]
  exact List.mem_append_right _ List.mem_cons_self

theorem ofString_separator (s t : String) :
    ofString (s ++ "/" ++ t) = ofString s ++ separator :: ofString t := by
  rw [ofString, String.toList_append, String.toList_append, Text.Utf8.encode_append,
    Text.Utf8.encode_append, List.append_assoc]
  rfl

/-- What is written of a directory is the path of what is written of its names. -/
theorem ofString_directory (names : List String) :
    ofString ("/" ++ "/".intercalate names) = directoryPath (names.map ofString) := by
  have hseparator (before after : List Char) :
      encode (before ++ '/' :: after) = encode before ++ separator :: encode after := by
    rw [Text.Utf8.encode_append, Text.Utf8.encode_cons]
    rfl
  have hencode : ofString = encode ∘ String.toList := rfl
  rw [ofString, String.toList_append, String.toList_intercalate]
  show encode ([] ++ '/' :: ['/'].intercalate (names.map String.toList)) = _
  rw [hseparator, map_intercalate rfl hseparator, List.map_map, ← hencode]
  rfl

/-- A path that is written of names leads to what is written of them. -/
theorem resolve_ofString {directory : List String} {filename : String}
    (hdirectory : ∀ name ∈ directory, IsFileName name) (hfilename : IsFileName filename)
    (workingDirectory : List UInt8) :
    resolve workingDirectory (ofString ("/" ++ "/".intercalate directory ++ "/" ++ filename)) =
      directory.map ofString ++ [ofString filename] := by
  have hnames : ∀ name ∈ directory.map ofString, IsName name ∧ separator ∉ name := by
    rw [List.forall_mem_map]
    exact fun name hname =>
      ⟨isName_ofString (hdirectory name hname), separator_not_mem_ofString (hdirectory name hname)⟩
  have hname := isName_ofString hfilename
  have habsolute : absolutePath workingDirectory
      (directoryPath (directory.map ofString) ++ separator :: ofString filename) =
      directoryPath (directory.map ofString) ++ separator :: ofString filename := if_pos rfl
  rw [ofString_separator, ofString_directory, resolve_eq, habsolute, segments_append,
    segments_directoryPath hnames, segments_name hname (separator_not_mem_ofString hfilename),
    foldl_descend]
  · rfl
  · rw [List.forall_mem_append, List.forall_mem_singleton]
    exact ⟨fun name hmem => (hnames name hmem).1, hname⟩

end Source

namespace SourceFile

open Source

variable {workingDirectory path name : List UInt8} {directory : List (List UInt8)}
  {file : SourceFile} {fault : Fault}

/-! ## The file of a path -/

theorem ofPath_of_resolve_eq_nil (hpath : path ≠ []) (h : resolve workingDirectory path = []) :
    ofPath workingDirectory path = .error (.invalidSourcePath (text path) .noFileName) := by
  have hname := fileName?_normalize workingDirectory path
  rw [h] at hname
  simp only [ofPath, if_neg hpath, hname]
  rfl

theorem ofPath_of_resolve_eq_concat (hpath : path ≠ [])
    (h : resolve workingDirectory path = directory ++ [name]) :
    ofPath workingDirectory path = .ok ⟨text (directoryPath directory), text name⟩ := by
  have hname := fileName?_normalize workingDirectory path
  rw [h, List.getLast?_concat] at hname
  simp only [ofPath, if_neg hpath, hname, parent?_normalize h]
  rfl

theorem ofPath_cases (workingDirectory path : List UInt8) :
    (path = [] ∧ ofPath workingDirectory path =
        .error (.invalidSourcePath (text path) .empty)) ∨
      (path ≠ [] ∧ resolve workingDirectory path = [] ∧ ofPath workingDirectory path =
        .error (.invalidSourcePath (text path) .noFileName)) ∨
      ∃ directory name, path ≠ [] ∧ resolve workingDirectory path = directory ++ [name] ∧
        ofPath workingDirectory path = .ok ⟨text (directoryPath directory), text name⟩ := by
  by_cases hpath : path = []
  · subst hpath
    exact .inl ⟨rfl, rfl⟩
  rcases List.eq_nil_or_concat (resolve workingDirectory path) with h | ⟨directory, name, h⟩
  · exact .inr (.inl ⟨hpath, h, ofPath_of_resolve_eq_nil hpath h⟩)
  · rw [List.concat_eq_append] at h
    exact .inr (.inr ⟨directory, name, hpath, h, ofPath_of_resolve_eq_concat hpath h⟩)

theorem ofPath_eq_error_iff : ofPath workingDirectory path = .error fault ↔
    path = [] ∧ fault = .invalidSourcePath (text path) .empty ∨
      path ≠ [] ∧ resolve workingDirectory path = [] ∧
        fault = .invalidSourcePath (text path) .noFileName := by
  rcases ofPath_cases workingDirectory path with ⟨hpath, h⟩ | ⟨hpath, hnames, h⟩ |
    ⟨directory, name, hpath, hnames, h⟩
  · rw [h, Except.error.injEq]
    constructor
    · exact fun hfault => .inl ⟨hpath, hfault.symm⟩
    · rintro (⟨-, rfl⟩ | ⟨hne, -⟩)
      · rfl
      · exact absurd hpath hne
  · rw [h, Except.error.injEq]
    constructor
    · exact fun hfault => .inr ⟨hpath, hnames, hfault.symm⟩
    · rintro (⟨hempty, -⟩ | ⟨-, -, rfl⟩)
      · exact absurd hempty hpath
      · rfl
  · rw [h]
    constructor
    · intro hfault
      cases hfault
    · rintro (⟨hempty, -⟩ | ⟨-, hnone, -⟩)
      · exact absurd hempty hpath
      · rw [hnames] at hnone
        exact absurd hnone (List.concat_ne_nil name directory)

theorem ofPath_eq_ok_iff : ofPath workingDirectory path = .ok file ↔
    path ≠ [] ∧ ∃ directory name, resolve workingDirectory path = directory ++ [name] ∧
      file.directory = text (directoryPath directory) ∧ file.filename = text name := by
  rcases ofPath_cases workingDirectory path with ⟨hpath, h⟩ | ⟨hpath, hnames, h⟩ |
    ⟨directory, name, hpath, hnames, h⟩
  · rw [h]
    constructor
    · intro hfile
      cases hfile
    · exact fun hfile => absurd hpath hfile.1
  · rw [h, hnames]
    constructor
    · intro hfile
      cases hfile
    · rintro ⟨-, directory, name, hnone, -⟩
      exact absurd hnone.symm (List.concat_ne_nil name directory)
  · obtain ⟨fileDirectory, filename⟩ := file
    rw [h, hnames]
    constructor
    · intro hfile
      cases hfile
      exact ⟨hpath, directory, name, rfl, rfl, rfl⟩
    · rintro ⟨-, directory', name', hsame, rfl, rfl⟩
      obtain ⟨rfl, hname⟩ := List.append_inj' hsame rfl
      cases hname
      rfl

/-- A path that is made absolute and normalized is the root and the names that the path leads
to.  A source file is the lenient reading of the last of these names and of the others.  There
is none if the path is empty or leads to no name, and the two texts with a separator between
them are the reading of the whole normal path. -/
theorem ofPath_reads_names (workingDirectory path : List UInt8) :
    ∃ names, (∀ names', LeadsTo workingDirectory path names' ↔ names' = names) ∧
      normalize (absolute workingDirectory path) = separator :: [separator].intercalate names ∧
      (∀ fault, ofPath workingDirectory path = .error fault ↔
        path = [] ∧ fault = .invalidSourcePath (text path) .empty ∨
          path ≠ [] ∧ names = [] ∧ fault = .invalidSourcePath (text path) .noFileName) ∧
      (∀ file, ofPath workingDirectory path = .ok file ↔
        path ≠ [] ∧ ∃ directory name, names = directory ++ [name] ∧
          file.directory = text (separator :: [separator].intercalate directory) ∧
          file.filename = text name) ∧
      ∀ file, ofPath workingDirectory path = .ok file →
        file.directory ++ (if file.directory = "/" then "" else "/") ++ file.filename =
          text (normalize (absolute workingDirectory path)) := by
  refine ⟨resolve workingDirectory path, fun _ => leadsTo_iff,
    normalize_absolute workingDirectory path, fun _ => ofPath_eq_error_iff,
    fun _ => ofPath_eq_ok_iff, ?_⟩
  intro file hfile
  obtain ⟨-, directory, name, hnames, hdirectory, hfilename⟩ := ofPath_eq_ok_iff.mp hfile
  have hplain : ∀ name ∈ resolve workingDirectory path, IsName name :=
    fun name hname => (isName_of_mem_resolve hname).1
  rw [hnames, List.forall_mem_append] at hplain
  rw [hdirectory, hfilename, text_directory_append hplain.1, ← hnames, normalize_absolute]

/-- A relative path with a parent and with bytes that are not UTF-8 before separators. -/
def brokenPath : List UInt8 :=
  [0x61, 0x2F, 0x2F, 0xE2, 0x82, 0x2F, 0x2E, 0x2F, 0xFF, 0xC3, 0x2F, 0x2E, 0x2E, 0x2F, 0x62, 0x80]

theorem ofPath_reads_names_of_brokenPath : ∃ file,
    ofPath (ofString "/usr/share") brokenPath = .ok file ∧
    file.directory = "/usr/share/a/\uFFFD" ∧ file.filename = "b\uFFFD" ∧
    ∃ names, LeadsTo (ofString "/usr/share") brokenPath names ∧
      normalize (absolute (ofString "/usr/share") brokenPath) =
        separator :: [separator].intercalate names ∧
      file.directory ++ (if file.directory = "/" then "" else "/") ++ file.filename =
        text (normalize (absolute (ofString "/usr/share") brokenPath)) := by
  have hfile : ofPath (ofString "/usr/share") brokenPath =
      .ok ⟨"/usr/share/a/\uFFFD", "b\uFFFD"⟩ := by decide +kernel
  obtain ⟨names, hnames, hnormal, -, -, hjoin⟩ :=
    ofPath_reads_names (ofString "/usr/share") brokenPath
  exact ⟨_, hfile, rfl, rfl, names, (hnames names).mpr rfl, hnormal, hjoin _ hfile⟩

example : ofPath (ofString "/usr/share") (ofString "//../a/..") =
    .error (.invalidSourcePath "//../a/.." .noFileName) := by decide +kernel

theorem ofPath_ofString {directory : List String} {filename : String}
    (hdirectory : ∀ name ∈ directory, IsFileName name) (hfilename : IsFileName filename)
    (workingDirectory : List UInt8) :
    ofPath workingDirectory (ofString ("/" ++ "/".intercalate directory ++ "/" ++ filename)) =
      .ok ⟨"/" ++ "/".intercalate directory, filename⟩ := by
  have hpath : ofString ("/" ++ "/".intercalate directory ++ "/" ++ filename) ≠ [] := by
    rw [ofString_separator]
    exact List.append_ne_nil_of_right_ne_nil _ (List.cons_ne_nil _ _)
  have htext : text ∘ ofString = id := funext text_ofString
  rw [ofPath_of_resolve_eq_concat hpath
    (resolve_ofString hdirectory hfilename workingDirectory), text_directoryPath, List.map_map,
    htext, List.map_id, text_ofString]

/-- The directory and the filename that are recorded of a path are the root and names, also
where the path is not UTF-8, and the path that they make is recorded as the same two. -/
theorem ofPath_recorded (h : ofPath workingDirectory path = .ok file) :
    ∃ directory, (∀ name ∈ directory, IsFileName name) ∧
      file.directory = "/" ++ "/".intercalate directory ∧ IsFileName file.filename ∧
      ∀ workingDirectory', ofPath workingDirectory'
        (ofString (file.directory ++ "/" ++ file.filename)) = .ok file := by
  obtain ⟨-, names, name, hnames, hdirectory, hfilename⟩ := ofPath_eq_ok_iff.mp h
  have hplain : ∀ name ∈ resolve workingDirectory path, IsFileName (text name) := by
    intro name hname
    obtain ⟨hname, hnot⟩ := isName_of_mem_resolve hname
    exact isFileName_text hname hnot
  rw [hnames, List.forall_mem_append, List.forall_mem_singleton] at hplain
  have hall : ∀ name ∈ names.map text, IsFileName name := by
    rw [List.forall_mem_map]
    exact hplain.1
  rw [text_directoryPath] at hdirectory
  refine ⟨names.map text, hall, hdirectory, hfilename ▸ hplain.2, ?_⟩
  intro workingDirectory'
  rw [hdirectory, hfilename, ofPath_ofString hall hplain.2, ← hdirectory, ← hfilename]

theorem ofPath_recorded_of_brokenPath : ∃ file,
    ofPath (ofString "/usr/share") brokenPath = .ok file ∧
    ∃ directory, (∀ name ∈ directory, IsFileName name) ∧
      file.directory = "/" ++ "/".intercalate directory ∧ IsFileName file.filename ∧
      ∀ workingDirectory', ofPath workingDirectory'
        (ofString (file.directory ++ "/" ++ file.filename)) = .ok file := by
  have hfile : ofPath (ofString "/usr/share") brokenPath =
      .ok ⟨"/usr/share/a/\uFFFD", "b\uFFFD"⟩ := by decide +kernel
  exact ⟨_, hfile, ofPath_recorded hfile⟩

example : ofPath [] (ofString "//a") = .ok ⟨"/", "a"⟩ := by decide +kernel

end SourceFile

end DebugMetadata
