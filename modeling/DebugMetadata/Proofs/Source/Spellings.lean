import DebugMetadata.Proofs.Footprint.Recorders
import DebugMetadata.Proofs.Graph.Search
import DebugMetadata.Proofs.Source.Files
import Mathlib.Logic.Relation

/-!
# Spellings of a path

One path can be spelled in many ways: with separators that are doubled or at its end, with
detours that lead back to where they start, and from the root instead of from the working
directory.  Two spellings of a path lead to the same names.  So they are read as the same
source file, and recorders that are created with them share its node.
-/

namespace DebugMetadata

namespace Source

variable {workingDirectory path path' detour name : List UInt8}

/-- Components that lead back to where they start: a single dot, or a name and its parent. -/
inductive IsDetour : List UInt8 → Prop where
  | here : IsDetour hereSegment
  | back {name : List UInt8} (hname : IsName name) (hnot : separator ∉ name) :
    IsDetour (name ++ separator :: parentSegment)

/-- An edit of a path that leaves it where it leads. -/
inductive Respells (workingDirectory : List UInt8) : List UInt8 → List UInt8 → Prop where
  | double (before after : List UInt8) :
    Respells workingDirectory (before ++ separator :: after)
      (before ++ separator :: separator :: after)
  | trail (path : List UInt8) : Respells workingDirectory path (path ++ [separator])
  /-- A detour before the first component of a relative path. -/
  | first {path detour : List UInt8} (hrelative : path.head? ≠ some separator)
      (hdetour : IsDetour detour) :
    Respells workingDirectory path (detour ++ separator :: path)
  /-- A detour between a separator and the component after it, or between a component and the
  separator after it. -/
  | within {detour : List UInt8} (before after : List UInt8) (hdetour : IsDetour detour) :
    Respells workingDirectory (before ++ separator :: after)
      (before ++ separator :: (detour ++ separator :: after))
  | last {detour : List UInt8} (path : List UInt8) (hdetour : IsDetour detour) :
    Respells workingDirectory path (path ++ separator :: detour)
  /-- A detour where nothing stands after a separator. -/
  | fill {detour : List UInt8} (before : List UInt8) {after : List UInt8}
      (hafter : after = [] ∨ after.head? = some separator) (hdetour : IsDetour detour) :
    Respells workingDirectory (before ++ separator :: after)
      (before ++ separator :: (detour ++ after))
  | root {path : List UInt8} (hrelative : path.head? ≠ some separator) :
    Respells workingDirectory path (workingDirectory ++ separator :: path)

/-- The second path is another spelling of the first one. -/
abbrev Spells (workingDirectory : List UInt8) : List UInt8 → List UInt8 → Prop :=
  Relation.ReflTransGen (Respells workingDirectory)

/-! ## Detours -/

theorem IsDetour.foldl_descend (h : IsDetour detour) (stack : List (List UInt8)) :
    (segments detour).foldl descend stack = stack := by
  cases h with
  | here => rfl
  | @back name hname hnot =>
      have hparent : segments parentSegment = [parentSegment] := by decide
      have hdown : descend stack name = stack ++ [name] := if_neg hname.ne_parent
      rw [segments_append, segments_name hname hnot, hparent]
      change descend (descend stack name) parentSegment = stack
      rw [hdown, descend, if_pos rfl, List.dropLast_concat]

/-- A path that begins with a detour is relative. -/
theorem IsDetour.isAbsolute_append (h : IsDetour detour) (rest : List UInt8) :
    isAbsolute (detour ++ rest) = false := by
  cases h with
  | here => rfl
  | @back name hname hnot =>
      cases name with
      | nil => exact absurd rfl hname.ne_nil
      | cons b name =>
          have hb : b ≠ separator := fun hb => hnot (hb ▸ List.mem_cons_self)
          simpa [isAbsolute] using hb

/-! ## Edits -/

/-- Two paths lead to the same names if they start in the same place and go the same way from
wherever they start. -/
theorem resolve_congr (hstart : isAbsolute path' = isAbsolute path)
    (hway : ∀ stack, (segments path').foldl descend stack = (segments path).foldl descend stack) :
    resolve workingDirectory path' = resolve workingDirectory path := by
  unfold resolve
  rw [hstart, List.foldl_append, List.foldl_append, hway]

theorem isAbsolute_append_separator (before after after' : List UInt8) :
    isAbsolute (before ++ separator :: after') = isAbsolute (before ++ separator :: after) := by
  cases before with
  | nil => rfl
  | cons b before => rfl

/-- What is empty or begins with a separator can be set off by one more separator. -/
theorem segments_separator {after : List UInt8}
    (h : after = [] ∨ after.head? = some separator) (before : List UInt8) :
    segments (before ++ after) = segments before ++ segments after := by
  rcases h with rfl | h
  · rw [List.append_nil, segments_nil, List.append_nil]
  · cases after with
    | nil => cases h
    | cons b after =>
        cases h
        rw [segments_append, ← List.nil_append (separator :: after), segments_append, segments_nil,
          List.nil_append]

theorem Respells.resolve_eq (h : Respells workingDirectory path path')
    (hdirectory : isAbsolute workingDirectory = true) (hpath : path ≠ []) :
    resolve workingDirectory path' = resolve workingDirectory path := by
  cases h with
  | double before after =>
      refine resolve_congr (isAbsolute_append_separator _ _ _) fun stack => ?_
      rw [segments_append, segments_append, ← List.nil_append (separator :: after),
        segments_append, segments_nil, List.nil_append]
  | trail =>
      refine resolve_congr (isAbsolute_append hpath _) fun stack => ?_
      rw [segments_append, segments_nil, List.append_nil]
  | first hrelative hdetour =>
      refine resolve_congr ?_ fun stack => ?_
      · rw [hdetour.isAbsolute_append, isAbsolute, beq_eq_false_iff_ne.mpr hrelative]
      · rw [segments_append, List.foldl_append, hdetour.foldl_descend]
  | within before after hdetour =>
      refine resolve_congr (isAbsolute_append_separator _ _ _) fun stack => ?_
      rw [segments_append, segments_append, segments_append, List.foldl_append, List.foldl_append,
        List.foldl_append, hdetour.foldl_descend]
  | last _ hdetour =>
      refine resolve_congr (isAbsolute_append hpath _) fun stack => ?_
      rw [segments_append, List.foldl_append, hdetour.foldl_descend]
  | fill before hafter hdetour =>
      refine resolve_congr (isAbsolute_append_separator _ _ _) fun stack => ?_
      rw [segments_append, segments_append, segments_separator hafter, List.foldl_append,
        List.foldl_append, List.foldl_append, hdetour.foldl_descend]
  | root hrelative =>
      have hne : workingDirectory ≠ [] := by
        rintro rfl
        cases hdirectory
      have hpath : isAbsolute path = false := beq_eq_false_iff_ne.mpr hrelative
      unfold resolve
      rw [isAbsolute_append hne, hdirectory, hpath, segments_append]
      rfl

theorem Respells.ne_nil (h : Respells workingDirectory path path') (hpath : path ≠ []) :
    path' ≠ [] := by
  cases h with
  | trail => exact List.append_ne_nil_of_left_ne_nil hpath _
  | _ => exact List.append_ne_nil_of_right_ne_nil _ (List.cons_ne_nil _ _)

/-- Every spelling of a path leads to the same names. -/
theorem Spells.resolve_eq (h : Spells workingDirectory path path')
    (hdirectory : isAbsolute workingDirectory = true) (hpath : path ≠ []) :
    path' ≠ [] ∧ resolve workingDirectory path' = resolve workingDirectory path := by
  induction h with
  | refl => exact ⟨hpath, rfl⟩
  | tail _ hrespells ih =>
      obtain ⟨hne, hresolve⟩ := ih
      exact ⟨hrespells.ne_nil hne, (hrespells.resolve_eq hdirectory hne).trans hresolve⟩

end Source

open Source
open Text.Utf8 (text ofString)

variable {workingDirectory path path' path₁ path₂ : List UInt8}

/-- Two paths that lead to the same names are the same file, or neither has a file name. -/
theorem SourceFile.ofPath_of_resolve_eq (hpath : path ≠ []) (hpath' : path' ≠ [])
    (h : resolve workingDirectory path' = resolve workingDirectory path) :
    (∃ file, ofPath workingDirectory path = .ok file ∧ ofPath workingDirectory path' = .ok file) ∨
      (ofPath workingDirectory path = .error (.invalidSourcePath (text path) .noFileName) ∧
        ofPath workingDirectory path' =
          .error (.invalidSourcePath (text path') .noFileName)) := by
  rcases List.eq_nil_or_concat (resolve workingDirectory path) with
    hnames | ⟨directory, name, hnames⟩
  · exact .inr ⟨ofPath_of_resolve_eq_nil hpath hnames,
      ofPath_of_resolve_eq_nil hpath' (h.trans hnames)⟩
  · rw [List.concat_eq_append] at hnames
    exact .inl ⟨_, ofPath_of_resolve_eq_concat hpath hnames,
      ofPath_of_resolve_eq_concat hpath' (h.trans hnames)⟩

/-! ## Recorders of one file -/

namespace Recorder

variable {r r' : Recorder} {g : Graph} {m m' : Module} {source : SourceFile} {event : Option Event}

/-- The node of the recorder's file. -/
def file? : Recorder → Option NodeId
  | .off => none
  | .typed t => some t.file
  | .tagged t => some t.file

def source? : Recorder → Option SourceFile
  | .off => none
  | .typed t => some t.source
  | .tagged t => some t.source

theorem LeadsTo.source?_eq (h : r.LeadsTo r') : r'.source? = r.source? := by
  cases h with
  | off => rfl
  | typed h => exact congrArg some h.source
  | tagged h => exact congrArg some h.source

/-- Recorders of one schema and of one file share the file's node. -/
theorem exists_file?_eq {schema : Schema} (hg : g.Indexed) (hr : r.Rooted g) (hr' : r'.Rooted g)
    (hschema : r.schema? = some schema) (hschema' : r'.schema? = some schema)
    (hsource : r.source? = some source) (hsource' : r'.source? = some source) :
    ∃ file, r.file? = some file ∧ r'.file? = some file := by
  cases r with
  | off => cases hschema
  | typed t =>
      cases hschema
      cases r' with
      | typed t' =>
          have hfile := hr.file
          rw [Option.some.inj hsource, ← Option.some.inj hsource'] at hfile
          exact ⟨t.file, rfl, congrArg some (hg.eq_of_node? rfl hr'.file hfile)⟩
      | off => cases hschema'
      | tagged t' => cases hschema'
  | tagged t =>
      cases hschema
      cases r' with
      | tagged t' =>
          obtain ⟨pair, hfile⟩ := TaggedRecorder.Rooted.file hr
          obtain ⟨pair', hfile'⟩ := TaggedRecorder.Rooted.file hr'
          rw [Option.some.inj hsource, ← Option.some.inj hsource'] at hfile
          -- Who asks for the file gets both nodes.
          have hsame := (hfile'.addFile_eq hg).symm.trans (hfile.addFile_eq hg)
          exact ⟨t.file, rfl, congrArg some (congrArg Prod.fst hsame)⟩
      | off => cases hschema'
      | typed t' => cases hschema'

theorem source?_create {schema : Schema} {settings : Settings}
    (h : create (some schema) settings workingDirectory path m = .ok (r, m', event)) :
    ∃ source, SourceFile.ofPath workingDirectory path = .ok source ∧ r.source? = some source := by
  rcases create_cases h with ⟨hnone, -⟩ | ⟨source, -, hsource, hr, -⟩ |
    ⟨source, -, hsource, hr, -⟩
  · cases hnone
  · rw [hr, Recorder.source?, TypedRecorder.source_create]
    exact ⟨source, hsource, rfl⟩
  · rw [hr, Recorder.source?, TaggedRecorder.source_create]
    exact ⟨source, hsource, rfl⟩

end Recorder

namespace Session

variable {s s' : Session} {command : Command} {answer : Answer} {schema : Schema}
  {source : SourceFile} {n : Nat}

/-- The recorder of a number records a file in a schema. -/
def Records (s : Session) (n : Nat) (schema : Schema) (source : SourceFile) : Prop :=
  ∃ r, s.HasRecorder n r ∧ r.schema? = some schema ∧ r.source? = some source

theorem Records.step (h : s.Records n schema source) (hperform : s.Performs command answer s') :
    s'.Records n schema source := by
  obtain ⟨r, hr, hschema, hsource⟩ := h
  obtain ⟨r', hr', hleads, -⟩ := hperform.exists_leadsTo hr
  exact ⟨r', hr', hleads.schema?_eq.trans hschema, hleads.source?_eq.trans hsource⟩

/-- A recorder that is created records the file that its path is read as. -/
theorem Performs.exists_records {choice : RecorderChoice} {settings : Settings}
    (h : s.Performs (.createRecorder choice settings path) answer s')
    (hschema : choice.schema settings = some schema) :
    ∃ source, answer = .recorder s.recorders.size ∧
      SourceFile.ofPath s.workingDirectory path = .ok source ∧
      s'.Records s.recorders.size schema source := by
  cases h with
  | createRecorder _ _ _ hcreate =>
      rw [hschema] at hcreate
      obtain ⟨source, hfile, hsource⟩ := Recorder.source?_create hcreate
      exact ⟨source, rfl, hfile, _, ⟨_, Array.getElem?_push_size, rfl⟩,
        Recorder.schema?_create hcreate, hsource⟩

/-- A recorder of the same file can be created at any later time, and shares the node. -/
theorem Records.exists_createRecorder {choice : RecorderChoice} {settings : Settings}
    (h : s.Records n schema source) (hs : s.Rooted)
    (hschema : choice.schema settings = some schema)
    (hsource : SourceFile.ofPath s.workingDirectory path = .ok source) :
    ∃ n' s' slot slot' file,
      s.perform (.createRecorder choice settings path) = .ok (.recorder n', s') ∧ n ≠ n' ∧
      s'.recorders[n]? = some slot ∧ s'.recorders[n']? = some slot' ∧
      slot.recorder.file? = some file ∧ slot'.recorder.file? = some file := by
  obtain ⟨s', hcreate⟩ := perform_createRecorder settings hschema hsource
  have hperform := performs_of_ok hcreate
  obtain ⟨source', -, hsource', hnew⟩ := hperform.exists_records hschema
  cases hsource.symm.trans hsource'
  obtain ⟨r, ⟨slot, hslot, rfl⟩, hr, hfile⟩ := h.step hperform
  obtain ⟨r', ⟨slot', hslot', rfl⟩, hr', hfile'⟩ := hnew
  have hrooted := hs.step hperform
  obtain ⟨file, hnode, hnode'⟩ := Recorder.exists_file?_eq hrooted.indexed
    (hrooted.recorders n slot hslot) (hrooted.recorders _ slot' hslot') hr hr' hfile hfile'
  obtain ⟨old, hold, -⟩ := h
  exact ⟨_, s', slot, slot', file, hcreate, Nat.ne_of_lt hold.lt, hslot, hslot', hnode, hnode'⟩

/-- Two spellings of a path are read as the same file, or neither is read as one, for the same
cause.  Recorders of one schema that are created with them share the file's node, whatever is
done to the module before, in between and by whom. -/
theorem spellings_record_one_file (hdirectory : isAbsolute workingDirectory = true)
    (hpath : path ≠ []) (hpath₁ : Spells workingDirectory path path₁)
    (hpath₂ : Spells workingDirectory path path₂) :
    ((∃ file, SourceFile.ofPath workingDirectory path₁ = .ok file ∧
        SourceFile.ofPath workingDirectory path₂ = .ok file) ∨
      (SourceFile.ofPath workingDirectory path₁ =
          .error (.invalidSourcePath (text path₁) .noFileName) ∧
        SourceFile.ofPath workingDirectory path₂ =
          .error (.invalidSourcePath (text path₂) .noFileName))) ∧
    ∀ (name : String) (before between : List Command) (schema : Schema)
      (choice₁ choice₂ : RecorderChoice) (settings₁ settings₂ : Settings) (n₁ : Nat)
      (s : Session),
      choice₁.schema settings₁ = some schema → choice₂.schema settings₂ = some schema →
      ((Session.start workingDirectory name).run before).2.perform
        (.createRecorder choice₁ settings₁ path₁) = .ok (.recorder n₁, s) →
      ∃ n₂ s' slot₁ slot₂ file,
        (s.run between).2.perform (.createRecorder choice₂ settings₂ path₂) =
          .ok (.recorder n₂, s') ∧
        n₁ ≠ n₂ ∧ s'.recorders[n₁]? = some slot₁ ∧ s'.recorders[n₂]? = some slot₂ ∧
        slot₁.recorder.file? = some file ∧ slot₂.recorder.file? = some file := by
  obtain ⟨hne₁, hresolve₁⟩ := hpath₁.resolve_eq hdirectory hpath
  obtain ⟨hne₂, hresolve₂⟩ := hpath₂.resolve_eq hdirectory hpath
  have hsame := SourceFile.ofPath_of_resolve_eq hne₁ hne₂ (hresolve₂.trans hresolve₁.symm)
  refine ⟨hsame, ?_⟩
  intro name before between schema choice₁ choice₂ settings₁ settings₂ n₁ s₁ hschema₁ hschema₂
    hcreate
  have hbefore := run_keeps (fun s => s.Rooted ∧ s.workingDirectory = workingDirectory)
    (fun h hperform => ⟨h.1.step hperform, hperform.workingDirectory_eq.trans h.2⟩)
    ⟨.start workingDirectory name, rfl⟩ before
  generalize ((Session.start workingDirectory name).run before).2 = s at hcreate hbefore
  obtain ⟨hrooted, hwhere⟩ := hbefore
  have hperform := performs_of_ok hcreate
  obtain ⟨source, hn₁, hsource₁, hrecords⟩ := hperform.exists_records hschema₁
  cases hn₁
  rw [hwhere] at hsource₁
  have hsource₂ : SourceFile.ofPath workingDirectory path₂ = .ok source := by
    rcases hsame with ⟨file, hfile₁, hfile₂⟩ | ⟨hnone, -⟩
    · exact hfile₂.trans (hfile₁.symm.trans hsource₁)
    · cases hnone.symm.trans hsource₁
  have hbetween := run_keeps (fun s' => s'.Rooted ∧ s'.workingDirectory = workingDirectory ∧
      s'.Records s.recorders.size schema source)
    (fun h hperform => ⟨h.1.step hperform, hperform.workingDirectory_eq.trans h.2.1,
      h.2.2.step hperform⟩)
    ⟨hrooted.step hperform, hperform.workingDirectory_eq.trans hwhere, hrecords⟩ between
  obtain ⟨hrooted', hwhere', hrecords'⟩ := hbetween
  exact hrecords'.exists_createRecorder hrooted' hschema₂ (hwhere'.symm ▸ hsource₂)

/-- A file of the working directory, with a dot before it, and from the root with a separator
after it. -/
theorem spellings_record_one_file_of_directory :
    Spells (ofString "/usr/share") (ofString "a") (ofString "./a") ∧
    Spells (ofString "/usr/share") (ofString "a") (ofString "/usr/share/a/") ∧
    SourceFile.ofPath (ofString "/usr/share") (ofString "./a") = .ok ⟨"/usr/share", "a"⟩ ∧
    SourceFile.ofPath (ofString "/usr/share") (ofString "/usr/share/a/") =
      .ok ⟨"/usr/share", "a"⟩ ∧
    ∀ schema, ∃ s n s' slot₁ slot₂ file,
      (Session.start (ofString "/usr/share") "m").perform
        (.createRecorder (.fixed schema) {} (ofString "./a")) = .ok (.recorder 0, s) ∧
      s.perform (.createRecorder (.fixed schema) {} (ofString "/usr/share/a/")) =
        .ok (.recorder n, s') ∧
      0 ≠ n ∧ s'.recorders[0]? = some slot₁ ∧ s'.recorders[n]? = some slot₂ ∧
      slot₁.recorder.file? = some file ∧ slot₂.recorder.file? = some file := by
  have hrelative : (ofString "a").head? ≠ some separator := by decide +kernel
  have hdot : ofString "./a" = hereSegment ++ separator :: ofString "a" := by decide +kernel
  have hroot : ofString "/usr/share/a/" =
      (ofString "/usr/share" ++ separator :: ofString "a") ++ [separator] := by decide +kernel
  have hdotted : Spells (ofString "/usr/share") (ofString "a") (ofString "./a") := by
    rw [hdot]
    exact .single (.first hrelative .here)
  have hrooted : Spells (ofString "/usr/share") (ofString "a") (ofString "/usr/share/a/") := by
    rw [hroot]
    exact .tail (.single (.root hrelative)) (.trail _)
  have hfile : SourceFile.ofPath (ofString "/usr/share") (ofString "./a") =
      .ok ⟨"/usr/share", "a"⟩ := by decide +kernel
  obtain ⟨hsame, hshared⟩ := spellings_record_one_file (by decide +kernel) (by decide +kernel)
    hdotted hrooted
  refine ⟨hdotted, hrooted, hfile, ?_, ?_⟩
  · rcases hsame with ⟨file, hfile₁, hfile₂⟩ | ⟨hnone, -⟩
    · exact hfile₂.trans (hfile₁.symm.trans hfile)
    · cases hnone.symm.trans hfile
  · intro schema
    obtain ⟨s, hcreate⟩ : ∃ s, (start (ofString "/usr/share") "m").perform
        (.createRecorder (.fixed schema) {} (ofString "./a")) = .ok (.recorder 0, s) :=
      perform_createRecorder {} rfl hfile
    obtain ⟨n, s', slot₁, slot₂, file, hshare⟩ :=
      hshared "m" [] [] schema (.fixed schema) (.fixed schema) {} {} 0 s rfl rfl hcreate
    exact ⟨s, n, s', slot₁, slot₂, file, hcreate, hshare⟩

end Session

end DebugMetadata
