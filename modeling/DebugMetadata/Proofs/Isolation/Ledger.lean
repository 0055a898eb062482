import DebugMetadata.Proofs.History.Basic
import DebugMetadata.Proofs.Isolation.Unfolding
import DebugMetadata.Proofs.Lists
import DebugMetadata.Proofs.Session.Continuity

/-!
# Recorders and their accounts

A ledger is kept beside a run and says of every recorder which one it goes back to
through clones and which locations it has created.  With it the calls of a recorder and
of its clones are told apart from all others, and can be left out of the run.  What a
recorder has recorded is its account, which has no handles in it and so can be compared
between runs.
-/

namespace DebugMetadata

/-! ## What a recorder has -/

namespace Recorder

def unit? : Recorder → Option NodeId
  | .off => none
  | .typed t => some t.unit
  | .tagged t => some t.unit

/-- The list that the recorder's unit refers to. -/
def list? : Recorder → Option ListId
  | .off => none
  | .typed _ => none
  | .tagged t => some t.subprograms

/-- The subprograms that the recorder has recorded, in order. -/
def subprograms (r : Recorder) (g : Graph) : List NodeId :=
  match r with
  | .off => []
  | .typed t => t.subprograms.toList
  | .tagged t => ((g.list? t.subprograms).getD #[]).toList

/-- The line of the last marker. -/
def lastLine? : Recorder → Option Nat
  | .off => none
  | .typed _ => none
  | .tagged t => t.lastLine

/-- The location that the recorder creates for a line. -/
def newLocation? (r : Recorder) (m : Module) (line : Nat) : Option NodeId :=
  match r.addLocation? line m with
  | some (.ok (id, _)) => some id
  | _ => none

/-- The location that the recorder creates when it is told something.  A line that
repeats the last marker's gets none. -/
def location? (r : Recorder) (m : Module) : RecorderCommand → Option NodeId
  | .markLocation _ line => if r.lastLine? = some line then none else r.newLocation? m line
  | .addLocation line => r.newLocation? m line
  | _ => none

end Recorder

/-! ## Ledgers -/

/-- What a run tells of a recorder. -/
structure LedgerEntry where
  /-- The recorder it goes back to, which is itself if it is not a clone. -/
  family : Nat
  /-- The locations it has created, in order. -/
  locations : List NodeId := []
  deriving DecidableEq, Repr

/-- What a run tells of its recorders. -/
structure Ledger where
  entries : Array LedgerEntry := #[]
  /-- The subprograms that were registered, in order, each with the family it was
  registered in. -/
  subprograms : List (Nat × NodeId) := []
  deriving DecidableEq, Repr

namespace Ledger

def family? (ledger : Ledger) (n : Nat) : Option Nat := ledger.entries[n]?.map (·.family)

/-- The number that a recorder has where those of a family are left out. -/
def place (ledger : Ledger) (root n : Nat) : Nat :=
  (List.range n).countP fun k => ledger.family? k ≠ some root

/-- Whether the command makes the first recorder of a family or tells one of them
something. -/
def concerns (ledger : Ledger) (root : Nat) : Command → Bool
  | .createRecorder _ _ _ => ledger.entries.size = root
  | .recorder n _ => ledger.family? n = some root
  | _ => false

/-- The subprograms that were registered in a family, in order. -/
def registered (ledger : Ledger) (family : Nat) : List NodeId :=
  ledger.subprograms.filterMap fun entry => if entry.1 = family then some entry.2 else none

/-- The ledger with another recorder of a family. -/
def push (ledger : Ledger) (family : Nat) : Ledger :=
  { ledger with entries := ledger.entries.push { family } }

/-- The ledger after a recorder is told something. -/
def add (ledger : Ledger) (n : Nat) (r : Recorder) (m : Module) (command : RecorderCommand) :
    Ledger :=
  { entries := ledger.entries.modify n fun entry =>
      { entry with locations := entry.locations ++ (r.location? m command).toList }
    subprograms := ledger.subprograms ++
      ((r.registration? m command).map fun registration =>
        ((ledger.family? n).getD n, registration.id)).toList }

end Ledger

/-- The command with other numbers for the recorders. -/
def Command.renumber (f : Nat → Nat) : Command → Command
  | .recorder n command => .recorder (f n) command
  | command => command

/-- What a recorder has recorded, with every handle followed down to some depth. -/
structure Account where
  unit : Option Unfolding
  subprograms : List Unfolding
  locations : List Unfolding
  active : Option Unfolding
  lastLine : Option Nat

namespace Session

/-- The ledger after a command that succeeds. -/
def ledgerAfter (s : Session) (ledger : Ledger) : Command → Ledger
  | .createRecorder _ _ _ => ledger.push ledger.entries.size
  | .recorder n .clone => ledger.push ((ledger.family? n).getD n)
  | .recorder n command =>
    match s.recorders[n]? with
    | some slot => ledger.add n slot.recorder s.module command
    | none => ledger
  | _ => ledger

/-- The commands of a run, up to where it ends, without those that concern a family of
recorders.  The other recorders are renumbered. -/
def leaveOut (root : Nat) (s : Session) (ledger : Ledger) : List Command → List Command
  | [] => []
  | command :: rest =>
    let kept :=
      if ledger.concerns root command then [] else [command.renumber (ledger.place root)]
    match s.perform command with
    | .ok (_, s') => kept ++ s'.leaveOut root (s.ledgerAfter ledger command) rest
    | .error .dangling => kept
    | .error _ => kept ++ s.leaveOut root ledger rest

def account? (s : Session) (ledger : Ledger) (depth n : Nat) : Option Account := do
  let slot ← s.recorders[n]?
  let entry ← ledger.entries[n]?
  let unfold := s.module.graph.unfold depth
  return {
    unit := slot.recorder.unit?.map unfold
    subprograms := (slot.recorder.subprograms s.module.graph).map unfold
    locations := entry.locations.map unfold
    active := slot.recorder.active?.map unfold
    lastLine := slot.recorder.lastLine? }

end Session

/-! ## Families -/

namespace Ledger

variable {ledger ledger' : Ledger} {root n k : Nat}

theorem getElem?_push (ledger : Ledger) (family k : Nat) :
    (ledger.push family).entries[k]? =
      if k = ledger.entries.size then some { family } else ledger.entries[k]? :=
  Array.getElem?_push

theorem getElem?_add (ledger : Ledger) (n : Nat) (r : Recorder) (m : Module)
    (command : RecorderCommand) (k : Nat) :
    (ledger.add n r m command).entries[k]? =
      if n = k then ledger.entries[k]?.map fun entry =>
        { entry with locations := entry.locations ++ (r.location? m command).toList }
      else ledger.entries[k]? :=
  Array.getElem?_modify

theorem size_push (ledger : Ledger) (family : Nat) :
    (ledger.push family).entries.size = ledger.entries.size + 1 :=
  Array.size_push _

theorem family?_push (ledger : Ledger) (family n : Nat) :
    (ledger.push family).family? n =
      if n = ledger.entries.size then some family else ledger.family? n := by
  rw [family?, getElem?_push]
  split
  · rfl
  · rfl

theorem family?_push_self (ledger : Ledger) (family : Nat) :
    (ledger.push family).family? ledger.entries.size = some family := by
  rw [family?_push, if_pos rfl]

theorem family?_push_of_ne (h : n ≠ ledger.entries.size) (family : Nat) :
    (ledger.push family).family? n = ledger.family? n := by
  rw [family?_push, if_neg h]

theorem family?_add (ledger : Ledger) (k : Nat) (r : Recorder) (m : Module)
    (command : RecorderCommand) (n : Nat) :
    (ledger.add k r m command).family? n = ledger.family? n := by
  rw [family?, getElem?_add]
  split
  · rw [Option.map_map]
    rfl
  · rfl

theorem size_add (ledger : Ledger) (k : Nat) (r : Recorder) (m : Module)
    (command : RecorderCommand) : (ledger.add k r m command).entries.size = ledger.entries.size :=
  Array.size_modify

/-- What is registered in a family is added to it alone. -/
theorem registered_append {family : Nat} {id : NodeId}
    (h : ledger'.subprograms = ledger.subprograms ++ [(k, id)]) :
    ledger'.registered family =
      if k = family then ledger.registered family ++ [id] else ledger.registered family := by
  rw [registered, h]
  exact valuesAt_concat family k ledger.subprograms id

/-! ## Places -/

theorem place_congr (h : ∀ k < n, ledger'.family? k = ledger.family? k) :
    ledger'.place root n = ledger.place root n := by
  apply List.countP_congr
  intro k hk
  rw [h k (List.mem_range.mp hk)]

theorem place_push (h : n ≤ ledger.entries.size) (family : Nat) :
    (ledger.push family).place root n = ledger.place root n :=
  place_congr fun _ hk => family?_push_of_ne (Nat.ne_of_lt (Nat.lt_of_lt_of_le hk h)) family

theorem place_add (ledger : Ledger) (k : Nat) (r : Recorder) (m : Module)
    (command : RecorderCommand) (n : Nat) :
    (ledger.add k r m command).place root n = ledger.place root n :=
  place_congr fun j _ => ledger.family?_add k r m command j

theorem place_succ (ledger : Ledger) (root n : Nat) :
    ledger.place root (n + 1) =
      ledger.place root n + if ledger.family? n ≠ some root then 1 else 0 := by
  rw [place, List.range_succ, List.countP_append, List.countP_singleton, place]
  simp only [decide_eq_true_eq]

theorem place_le (ledger : Ledger) (root : Nat) (h : n ≤ k) :
    ledger.place root n ≤ ledger.place root k := by
  induction h with
  | refl => exact Nat.le_refl _
  | step _ ih =>
      rw [place_succ]
      exact Nat.le_add_right_of_le ih

theorem place_lt (hkept : ledger.family? n ≠ some root) (h : n < k) :
    ledger.place root n < ledger.place root k := by
  have hsucc := ledger.place_le root (Nat.succ_le_of_lt h)
  rw [place_succ, if_pos hkept] at hsucc
  exact hsucc

/-- Recorders that are not left out have different places. -/
theorem place_inj (hn : ledger.family? n ≠ some root) (hk : ledger.family? k ≠ some root) :
    ledger.place root n = ledger.place root k ↔ n = k := by
  constructor
  · intro heq
    rcases Nat.lt_trichotomy n k with hlt | hsame | hlt
    · exact absurd heq (Nat.ne_of_lt (place_lt hn hlt))
    · exact hsame
    · exact absurd heq.symm (Nat.ne_of_lt (place_lt hk hlt))
  · exact congrArg _

end Ledger

theorem Session.ledgerAfter_recorder {s : Session} {n : Nat} {command : RecorderCommand}
    {slot : RecorderSlot} (hslot : s.recorders[n]? = some slot) (hclone : command ≠ .clone)
    (ledger : Ledger) :
    s.ledgerAfter ledger (.recorder n command) =
      ledger.add n slot.recorder s.module command := by
  cases command with
  | clone => exact absurd rfl hclone
  | _ => simp only [ledgerAfter, hslot]

end DebugMetadata
