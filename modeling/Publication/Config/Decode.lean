import Publication.Config.Basic
import Publication.Mismatch
import Publication.Toml.Value

/-!
Settings as TOML: the table that holds them, and the reading of such a table. Fields that are not
given keep their default values; fields that are not known are refused.
-/

namespace Publication.Config

open Publication.Toml

/-- Why a value does not hold settings, and the keys that lead to the place. -/
structure DecodeError where
  mismatch : Mismatch
  path : List String
deriving Repr, DecidableEq

/-- The error in words, and its place on a second line. -/
def DecodeError.message (e : DecodeError) : String :=
  e.mismatch.text .positional
    ++ (if e.path.isEmpty then "" else "\nin " ++ ticked (String.intercalate "." e.path))

/-- The error seen from outside a table. -/
def DecodeError.under (key : String) (e : DecodeError) : DecodeError := ⟨e.mismatch, key :: e.path⟩

/-- A value as the thing found where another one is wanted. -/
def found : Value → Found
  | .string text => .string text
  | .integer n => .integer n
  | .float x => .float x
  | .boolean b => .boolean b
  | .datetime _ => .map
  | .array _ => .sequence
  | .table _ => .map

/-- The failure to find something where a value stands. -/
def unfit {α : Type} (value : Value) (wanted : String) : Except DecodeError α :=
  .error ⟨.type (found value) wanted, []⟩

def readString : Value → Except DecodeError String
  | .string text => .ok text
  | value => unfit value "a string"

def readBool : Value → Except DecodeError Bool
  | .boolean b => .ok b
  | value => unfit value "a boolean"

def readNat (limit : Nat) (wanted : String) : Value → Except DecodeError Nat
  | .integer n =>
      if 0 ≤ n && n < (limit : Int) then .ok n.toNat
      else .error ⟨.value (.integer n) wanted, []⟩
  | value => unfit value wanted

def readStrings : Value → Except DecodeError (List String)
  | .array items => items.mapM readString
  | value => unfit value "a sequence"

/-- A field of a structure: its key, and how its value is read into it. -/
structure Setting (α : Type) where
  key : String
  read : Value → α → Except DecodeError α

def readSetting {α : Type} (fields : List (Setting α)) (a : α) (entry : String × Value) :
    Except DecodeError α :=
  match fields.find? (·.key = entry.1) with
  | some field =>
      match field.read entry.2 a with
      | .ok a => .ok a
      | .error e => .error (e.under entry.1)
  | none => .error ⟨.unknownField entry.1 (fields.map (·.key)), []⟩

/-- The key under which a time passes for a table. -/
def datetimeKey : String := "$__toml_private_datetime"

/-- Reads a structure from a table, or from an array that holds its fields in order. -/
def readStructure {α : Type} (name : String) (fields : List (Setting α)) (default : α) :
    Value → Except DecodeError α
  | .table entries => entries.foldlM (readSetting fields) default
  | .array items =>
      match (fields.zip items).foldlM (fun a (field, item) => field.read item a) default with
      | .ok a =>
          if fields.length < items.length then
            .error ⟨.length items.length "fewer elements in array", []⟩
          else .ok a
      | .error e => .error e
  | .datetime _ => .error ⟨.unknownField datetimeKey (fields.map (·.key)), []⟩
  | value => unfit value ("struct " ++ name)

def latexSettings : List (Setting LatexSettings) := [
  ⟨"typesetter", fun v s => (readString v).map fun x => { s with typesetter := x }⟩,
  ⟨"typeset_args", fun v s => (readStrings v).map fun x => { s with typesetArgs := x }⟩,
  ⟨"rasterizer", fun v s => (readString v).map fun x => { s with rasterizer := x }⟩,
  ⟨"density", fun v s => (readNat (Nat.pow 2 32) "u32" v).map fun x => { s with density := x }⟩,
  ⟨"resize", fun v s => (readString v).map fun x => { s with resize := x }⟩,
  ⟨"timeout_secs", fun v s =>
    (readNat (Nat.pow 2 64) "u64" v).map fun x => { s with timeout := x }⟩,
  ⟨"image_dir", fun v s => (readString v).map fun x => { s with imageDir := x }⟩]

def thumbnailSettings : List (Setting ThumbnailSettings) := [
  ⟨"enabled", fun v s => (readBool v).map fun x => { s with enabled := x }⟩,
  ⟨"size", fun v s => (readNat (Nat.pow 2 32) "u32" v).map fun x => { s with size := x }⟩]

def groups : List (Setting Config) := [
  ⟨"latex", fun v c =>
    (readStructure "LatexConfig" latexSettings {} v).map fun x => { c with latex := x }⟩,
  ⟨"thumbnails", fun v c =>
    (readStructure "ThumbnailsConfig" thumbnailSettings {} v).map fun x =>
      { c with thumbnails := x }⟩]

/-- Reads all settings. -/
def decode (value : Value) : Except DecodeError Config :=
  readStructure "CompilerConfig" groups {} value

/-- All settings as a table. -/
def toToml (config : Config) : Value :=
  .table [
    ("latex", .table [
      ("density", .integer config.latex.density),
      ("image_dir", .string config.latex.imageDir),
      ("rasterizer", .string config.latex.rasterizer),
      ("resize", .string config.latex.resize),
      ("timeout_secs", .integer config.latex.timeout),
      ("typeset_args", .array (config.latex.typesetArgs.map .string)),
      ("typesetter", .string config.latex.typesetter)]),
    ("thumbnails", .table [
      ("enabled", .boolean config.thumbnails.enabled),
      ("size", .integer config.thumbnails.size)])]

end Publication.Config
