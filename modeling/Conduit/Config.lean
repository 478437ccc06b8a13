/-
# Configuration

The sizes of channels and of the kernel, read from a TOML document with a section
for each part. Sections and keys may be left out and then keep their standard
values; unknown ones are refused. A section may also be written as an array of
its values in order.

A configuration is usable if each of its sizes is one that a channel or the
kernel can have; the first that is not is reported.
-/

import Conduit.Call.Rpc
import Conduit.SlotChannel
import Conduit.Text.Utf8
import Conduit.Toml.Scan

namespace Conduit

/-- The sizes of channels and of the kernel. -/
structure Config where
  /-- The size in bytes of a slot of shared memory, the flag included. -/
  slotBytes : Nat := 64
  /-- The size in bytes of the frame that the two panes share. -/
  frameBytes : Nat := 4096
  /-- The length of the ring of a stream. -/
  ringLength : Nat := 4096
  /-- The size in bytes of a buffer page. -/
  pageSize : Nat := Rpc.standardPageSize
  /-- The number of messages that an endpoint queues. -/
  queueDepth : Nat := Kernel.standardDepth
  deriving DecidableEq

/-- Why there is no configuration. -/
inductive ConfigError where
  /-- The file cannot be read. -/
  | unreadable (path : String)
  /-- The text is no configuration; it came from a file, or was given directly. -/
  | malformed (path : Option String)
  /-- A size cannot be used. -/
  | unusable (key : String) (size : Nat)
  deriving DecidableEq

/-- What the report of an unusable size says. -/
def ConfigError.unusableMessage (key : String) (size : Nat) : String :=
  "invalid ipc config value " ++ key ++ " = " ++ toString size

namespace Config

/-- Tells whether a frame divides into two panes of whole slots. -/
def validFrame (slotBytes frameBytes : Nat) : Bool :=
  frameBytes ≠ 0 && frameBytes % (2 * slotBytes) == 0

/-- Passes if every size can be used. -/
def validate (c : Config) : Except ConfigError Unit :=
  if !SlotChannel.validSlotBytes c.slotBytes then .error (.unusable "ump.msg_size" c.slotBytes)
  else if !validFrame c.slotBytes c.frameBytes then
    .error (.unusable "ump.frame_size" c.frameBytes)
  else if c.ringLength < 2 then .error (.unusable "datachan.buffer_len" c.ringLength)
  else if c.pageSize = 0 then .error (.unusable "rpc.buf_page_size" c.pageSize)
  else if c.queueDepth = 0 then .error (.unusable "host.queue_depth" c.queueDepth)
  else .ok ()

/-! ### Reading -/

/-- A key of a section, and how its size enters a configuration. -/
structure Field where
  /-- The key. -/
  key : String
  /-- The configuration with the size. -/
  set : Nat → Config → Config

/-- A part of a configuration: its name and its keys in order. -/
structure Section where
  /-- The name. -/
  name : String
  /-- The keys. -/
  fields : List Field

/-- The sections of a configuration. -/
def sections : List Section :=
  [⟨"ump", [⟨"msg_size", fun n c => { c with slotBytes := n }⟩,
            ⟨"frame_size", fun n c => { c with frameBytes := n }⟩]⟩,
   ⟨"datachan", [⟨"buffer_len", fun n c => { c with ringLength := n }⟩]⟩,
   ⟨"rpc", [⟨"buf_page_size", fun n c => { c with pageSize := n }⟩]⟩,
   ⟨"host", [⟨"queue_depth", fun n c => { c with queueDepth := n }⟩]⟩]

/-- The size that a value is. -/
def size? : Toml.Value → Option Nat
  | .integer (.ofNat n) => some n
  | _ => none

/-- The configuration with the sizes of a section that is written as a table. -/
def readTable (fields : List Field) (c : Config) (entries : Toml.Entries) : Option Config :=
  entries.foldlM (fun c (key, value) => do
    let field ← fields.find? (·.key = key)
    return field.set (← size? value) c) c

/-- The configuration with the sizes of a section that is written as an array.
Items behind those of the section do not count. -/
def readArray : List Field → Config → List Toml.Value → Option Config
  | [], c, _ => some c
  | _, c, [] => some c
  | field :: fields, c, value :: values => do
      readArray fields (field.set (← size? value) c) values

/-- The configuration with the sizes of a section. -/
def readSection (fields : List Field) (c : Config) : Toml.Value → Option Config
  | .table _ entries => readTable fields c entries
  | .array items => readArray fields c items
  | _ => none

/-- The configuration that a document describes. -/
def ofDocument? (document : Toml.Entries) : Option Config :=
  document.foldlM (fun c (name, value) => do
    let part ← sections.find? (·.name = name)
    readSection part.fields c value) {}

/-- The configuration that a text describes, whether usable or not. -/
def parse? (text : String) : Option Config := do ofDocument? (← Toml.parse? text)

/-- The usable configuration that a text describes, for a report that names the file
that it came from. -/
def ofTextFrom (path : Option String) (text : String) : Except ConfigError Config :=
  match parse? text with
  | none => .error (.malformed path)
  | some c => (validate c).map fun _ => c

/-- The usable configuration that a text describes. -/
def ofText (text : String) : Except ConfigError Config := ofTextFrom none text

/-- The usable configuration in a file, of which the contents are given if it can be
read. A file that is not text cannot be read. -/
def ofFile (path : String) (contents : Option (List UInt8)) : Except ConfigError Config :=
  match contents.bind Utf8.decode? with
  | none => .error (.unreadable path)
  | some text => ofTextFrom (some path) text

end Config

end Conduit
