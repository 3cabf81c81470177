import Foundry.Archive.Gzip
import Foundry.Archive.Tar.Header

/-! Reading tar archives out of a data stream.

What cannot be read as a header behind the first member ends the archive. Reading on behind the
data of a stream that did not end well fails in the way in which the stream ended. -/
namespace Foundry.Tar

/-- Why an archive cannot be read. -/
inductive ReadFailure where
  | malformed
  /-- The data of its stream end badly. -/
  | stream (ending : StreamEnd)
deriving DecidableEq, Repr

/-- A member with the place of its content. -/
structure Member where
  header : Header
  start : Nat
deriving DecidableEq, Repr

/-- Read up to `size` bytes at a place: fewer only where a complete stream ends. -/
def readAt (stream : DataStream) (place size : Nat) : Except ReadFailure Bytes :=
  let found := (stream.data.drop place).take size
  if found.length = size ∨ stream.ending = .complete then .ok found
  else .error (.stream stream.ending)

inductive BlockRead where
  | header (h : Header)
  | nothing
  /-- A block of zeros, which ends an archive. -/
  | zeros
  | invalid
deriving Repr

def readBlock (stream : DataStream) (place : Nat) : Except ReadFailure BlockRead := do
  let block ← readAt stream place blockSize
  if block.isEmpty then pure .nothing
  else if block.length < blockSize then pure .invalid
  else if block.all (· = 0) then pure .zeros
  else match readHeader block with
    | some header => pure (.header header)
    | none => pure .invalid

/-! ### Extended fields -/

/-- The fields that extended headers give, in the order in which they were first set. -/
abbrev Fields := List (Bytes × Bytes)

def Fields.set : Fields → Bytes → Bytes → Fields
  | [], key, value => [(key, value)]
  | entry :: rest, key, value =>
    if entry.1 = key then (key, value) :: rest else entry :: Fields.set rest key value

/-- The head of a record, `length key=`, at the beginning of bytes: the length of the record, its
key, and the length of the head. -/
def recordHead? (bytes : Bytes) : Option (Nat × Bytes × Nat) :=
  let digits := bytes.takeWhile fun b => 0x30 ≤ b && b ≤ 0x39
  match digits, bytes.drop digits.length with
  | [], _ => none
  | _, 0x20 :: rest =>
    let key := rest.takeWhile (· ≠ 0x3D)
    if key.isEmpty || key.length = rest.length then none
    else
      let length := digits.foldl (fun n b => n * 10 + (b.toNat - 0x30)) 0
      some (length, key, digits.length + key.length + 2)
  | _, _ => none

/-- Read records of the form `length key=value`, each with a line end as its last byte, up to what
is no record; at most as many as given. Nothing if a record claims to be empty. -/
def readFields (fields : Fields) : Nat → Bytes → Option Fields
  | 0, _ => none
  | fuel + 1, bytes =>
    match recordHead? bytes with
    | none => some fields
    | some (0, _, _) => none
    | some (length + 1, key, head) =>
      let value := (bytes.take length).drop head
      readFields (fields.set key value) fuel (bytes.drop (length + 1))

/-- The size that a field gives; 0 if it gives none. -/
def fieldSize (value : Bytes) : Nat :=
  if value.isEmpty || value.any (fun b => b < 0x30 || 0x39 < b) then 0
  else value.foldl (fun n b => n * 10 + (b.toNat - 0x30)) 0

/-- A header with fields in place of its own. -/
def applyFields (header : Header) (fields : Fields) : Header :=
  fields.foldl
    (fun header (key, value) =>
      if key = Utf8.encode "path" then { header with name := dropSlashes value }
      else if key = Utf8.encode "linkpath" then { header with linkName := value }
      else if key = Utf8.encode "size" then { header with size := fieldSize value }
      else header)
    header

/-! ### Members -/

/-- What the reading of a member gives: the member, the place of the next one, and the fields for
all later members. -/
structure Step where
  member : Member
  next : Nat
  fields : Fields

/-- A member with the place behind its content. -/
def finish (header : Header) (start : Nat) (fields : Fields) : Step :=
  { member := { header, start }
    next := start + if header.kind.hasContent then padded header.size else 0
    fields }

/-- A directory's name does not end in slashes. -/
def tidy (header : Header) : Header :=
  if header.kind = .directory then { header with name := dropSlashes header.name } else header

/-- A name from the content of another member. -/
def longText (content : Bytes) : Bytes := content.takeWhile (· ≠ 0)

mutual

/-- Read the member that a header at a place begins, with at most as many headers before its own as
given. Nothing if a field record is not well formed. -/
def readMember (stream : DataStream) (fields : Fields) (header : Header) (place : Nat) :
    Nat → Except ReadFailure (Option Step)
  | 0 => .error .malformed
  | fuel + 1 =>
    let start := place + blockSize
    let next := start + padded header.size
    match header.kind with
    | .longName => do
      let content ← readAt stream start (padded header.size)
      let step ← readNext stream fields next fuel
      let member := { step.member.header with name := longText content }
      let member :=
        if member.kind = .directory ∧ member.name.getLast? = some slash then
          { member with name := member.name.dropLast } else member
      .ok (some { step with member := { step.member with header := member } })
    | .longLink => do
      let content ← readAt stream start (padded header.size)
      let step ← readNext stream fields next fuel
      let member := { step.member.header with linkName := longText content }
      .ok (some { step with member := { step.member with header := member } })
    | .extended => do
      let content ← readAt stream start (padded header.size)
      match readFields fields (content.length + 1) content with
      | none => .ok none
      | some own => do
        let step ← readNext stream fields next fuel
        let member := applyFields step.member.header own
        let moved := finish member step.member.start step.fields
        .ok (some { moved with next := if own.any (·.1 = Utf8.encode "size") then moved.next
                                       else step.next })
    | .global => do
      let content ← readAt stream start (padded header.size)
      match readFields fields (content.length + 1) content with
      | none => .ok none
      | some fields => do
        let step ← readNext stream fields next fuel
        .ok (some step)
    | _ =>
      let plain := finish header start fields
      let header := tidy (applyFields header fields)
      .ok (some { plain with member := { header, start } })

def readNext (stream : DataStream) (fields : Fields) (place : Nat) :
    Nat → Except ReadFailure Step
  | 0 => .error .malformed
  | fuel + 1 => do
    match ← readBlock stream place with
    | .header header =>
      match ← readMember stream fields header place fuel with
      | some step => .ok step
      | none => .error .malformed
    | _ => .error .malformed

end

/-- Whether a place behind the first member can be gone to. -/
def reach (stream : DataStream) (place : Nat) : Except ReadFailure Unit :=
  if place ≤ stream.data.length then .ok ()
  else if stream.ending = .complete then .error .malformed
  else .error (.stream stream.ending)

/-- A failure to read a header: corrupt data are no archive, and neither are damaged ones where it
begins. -/
def headerFailure (place : Nat) : ReadFailure → ReadFailure
  | .stream .corrupt => .malformed
  | .stream (.damaged reason) =>
    if place = 0 then .malformed else .stream (.damaged reason)
  | other => other

/-- Read the member at a place, or whatever ends the archive there. -/
def readEntry (stream : DataStream) (fields : Fields) (place : Nat) :
    Except ReadFailure (Option Step) := do
  match ← readBlock stream place with
  | .zeros => .ok none
  | .nothing | .invalid => if place = 0 then .error .malformed else .ok none
  | .header header =>
    match ← readMember stream fields header place (stream.data.length + 1) with
    | none => if place = 0 then .error .malformed else .ok none
    | some step => .ok (some step)

/-- Read members from a place on, at most as many as given. -/
def readMembers (stream : DataStream) (done : List Member) (fields : Fields) (place : Nat) :
    Nat → Except ReadFailure (List Member)
  | 0 => .ok done.reverse
  | fuel + 1 => do
    if 0 < place then reach stream place
    match (readEntry stream fields place).mapError (headerFailure place) with
    | .error failure => .error failure
    | .ok none => .ok done.reverse
    | .ok (some step) => readMembers stream (step.member :: done) step.fields step.next fuel

def members (stream : DataStream) : Except ReadFailure (List Member) :=
  readMembers stream [] [] 0 (stream.data.length + 1)

def content (stream : DataStream) (member : Member) : Except ReadFailure Bytes := do
  let found ← readAt stream member.start member.header.size
  if found.length < member.header.size then .error .malformed else .ok found

end Foundry.Tar
