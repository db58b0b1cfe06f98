import RemoteKeys.ConfigFile.Fault
import RemoteKeys.Text.Numeral

/-!
# Config files

A config file holds one section, whose header comes first, and one assignment a line after it.
Blank lines and comments mean nothing. Each parameter may be set once, in any order; the key mask
has to be.

A file is read line by line. What a line may be depends on the lines before it only through a
`Draft`: whether the section has begun, and what was set so far.
-/

namespace RemoteKeys.ConfigFile

open Text

/-- What the content of a line is. -/
inductive Statement where
  /-- A section header, and the name between its brackets. -/
  | header (line : Slice) (name : List Char)
  /-- A section header without its closing bracket. -/
  | openHeader (line : Slice)
  /-- Text on either side of an equals sign. -/
  | assignment (line name value : Slice)
  | other (line : Slice)
  deriving DecidableEq

/-- Reads the content of a line. -/
def Statement.ofContent (content : Slice) : Statement :=
  match content.chars with
  | '[' :: rest =>
    if rest.getLast? = some ']' then .header content (trim rest.dropLast) else .openHeader content
  | _ =>
    match content.cut? '=' with
    | some (name, value) => .assignment content name.trimEnd value.trimStart
    | none => .other content

/-- Reads a number that may be at most `most`. -/
def readNumber (most : Nat) (value : Slice) : Except Fault Nat :=
  match numeral? value.chars with
  | none => .error (.badNumber value)
  | some n => if n ≤ most then .ok n else .error (.tooLarge value)

/-- Reads a choice of register lines. -/
def readLines (value : Slice) : Except Fault Word :=
  (readNumber (wordLimit - 1) value).map (BitVec.ofNat _)

/-- The largest number that fits one byte. -/
def byteLimit : Nat := 255

/-- The largest quiet period that can be written, in milliseconds. -/
def gapLimitMs : Nat := 65535

def readSetting (param : Param) (value : Slice) : Except Fault Setting :=
  match param with
  | .mask => (readLines value).map .mask
  | .lockMask => (readLines value).map .lockMask
  | .invertMask => (readLines value).map .invertMask
  | .gap => (readNumber gapLimitMs value).map .gap
  | .rate => (readNumber byteLimit value).map .rate
  | .minor => (readNumber byteLimit value).map .minor
  | .width => (readNumber byteLimit value).map .width
  | .trigger =>
    match Trigger.ofName? value.chars with
    | some trigger => .ok (.trigger trigger)
    | none => .error (.badTrigger value)

/-- What the lines read so far say. -/
structure Draft where
  begun : Bool := false
  settings : List Setting := []
  deriving DecidableEq

namespace Draft

def Sets (d : Draft) (param : Param) : Prop := param ∈ d.settings.map Setting.param

instance (d : Draft) (param : Param) : Decidable (d.Sets param) :=
  inferInstanceAs (Decidable (param ∈ d.settings.map Setting.param))

def assign (d : Draft) (line name value : Slice) : Except Fault Draft :=
  match Param.ofName? name.chars with
  | none => .error (.unknownParam name)
  | some param =>
    if d.Sets param then .error (.repeatedParam name)
    else if value.IsEmpty then .error (.missingValue line)
    else (readSetting param value).map fun setting => { d with settings := d.settings ++ [setting] }

def add (d : Draft) (statement : Statement) : Except Fault Draft :=
  match statement with
  | .openHeader line => .error (.unclosedHeader line)
  | .header line name =>
    if name ≠ sectionName.toList then .error (.unknownSection line name)
    else if d.begun then .error (.repeatedSection line)
    else .ok { d with begun := true }
  | .assignment line name value =>
    if d.begun then d.assign line name value else .error (.outsideSection line)
  | .other line => .error (if d.begun then .notAssignment line else .outsideSection line)

/-- The trigger that was set; a card is polled where none was. -/
def trigger (d : Draft) : Trigger := (d.settings.findSome? Setting.trigger?).getD .polled

/-- What a card with that trigger is taken to be where nothing is said of it. -/
def defaults : Trigger → Config
  | .polled => Config.polled 0
  | .interrupt => Config.interrupt 0 0

/-- The configuration that a whole file describes. -/
def config (d : Draft) : Except Fault Config :=
  if ¬ d.begun then .error .missingSection
  else if ¬ d.Sets .mask then .error .missingMask
  else .ok (d.settings.foldl Setting.apply (defaults d.trigger))

end Draft

/-- What a list of line contents says, added to a draft. -/
def readContents (d : Draft) (contents : List Slice) : Except Fault Draft :=
  contents.foldlM (fun d content => d.add (Statement.ofContent content)) d

/-- The configuration that a file describes, or the first thing that is wrong with it. -/
def read (source : List Char) : Except Fault Config :=
  readContents {} (contents source) >>= Draft.config

end RemoteKeys.ConfigFile
