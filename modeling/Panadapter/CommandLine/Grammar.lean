/-! # Command lines

A command has options, positional arguments and possibly commands below it. Its arguments are read from left to right:
what is wrong first decides, and so does a request for help.

* `Opt`, `Positional`, `Grammar`: what a command takes, and how each part is put into its record.
* `Grammar.scan`: the arguments up to a command below.
* `Grammar.finish`: the record, once all arguments have been read.

A value that stands apart from its option is looked at only when the next option or positional argument comes, or when
the arguments and those of the command below are at their end.
-/

namespace Panadapter.CommandLine

/-- Why no command is run: help was asked for, or the arguments are wrong. -/
inductive Usage where
  | help
  | wrong
  deriving DecidableEq, Repr

/-- The exit code of a program that did not run. -/
def Usage.exitCode : Usage → Nat
  | help => 0
  | wrong => 2

/-- What an option does to the record: a flag is set, or a value is put, if it is a right one. -/
inductive Action (α : Type) where
  | flag (set : α → α)
  | value (put : String → α → Option α)

/-- An option with a long name, and possibly a letter. Only a repeatable one may be given twice. -/
structure Opt (α : Type) where
  long : String
  short : Option Char
  required : Bool
  repeatable : Bool
  action : Action α

/-- A positional argument that has to be given. -/
structure Positional (α : Type) where
  name : String
  put : String → α → Option α

/-- What a command takes. `exclusive` are pairs of options that do not go together. -/
structure Grammar (α : Type) where
  options : List (Opt α)
  positionals : List (Positional α)
  commands : List String
  exclusive : List (String × String)

/-- A value that has not been looked at: where it goes, under which name, and the value, unless it is still to come. -/
structure Pending (α : Type) where
  name : String
  repeatable : Bool
  put : String → α → Option α
  value : Option String

/-- What has been read: the record, the names of what was given, how many positional arguments there were, and the value
that has not been looked at. -/
structure Progress (α : Type) where
  record : α
  given : List String
  positionals : Nat
  pending : Option (Pending α)

namespace Progress

variable {α : Type}

/-- Nothing read yet. -/
def start (blank : α) : Progress α := ⟨blank, [], 0, none⟩

/-- A value put into the record under a name that is not taken. -/
def accept (p : Progress α) (name : String) (repeatable : Bool) (put : String → α → Option α) (value : String) :
    Except Usage (Progress α) :=
  if p.given.contains name && !repeatable then .error .wrong
  else match put value p.record with
    | none => .error .wrong
    | some record => .ok { p with record, given := name :: p.given }

/-- The value that has not been looked at, looked at. -/
def settle (p : Progress α) : Except Usage (Progress α) :=
  match p.pending with
  | none => .ok p
  | some w =>
    match w.value with
    | none => .error .wrong
    | some v => { p with pending := none }.accept w.name w.repeatable w.put v

end Progress

namespace Grammar

variable {α : Type} (g : Grammar α)

/-- A flag met. -/
def meetFlag (p : Progress α) (o : Opt α) (set : α → α) : Except Usage (Progress α) := do
  let p ← p.settle
  p.accept o.long o.repeatable (fun _ a => some (set a)) ""

/-- An option met that takes a value, with the value if it stands in the same argument. -/
def meetValue (p : Progress α) (o : Opt α) (put : String → α → Option α) (attached : Option String) :
    Except Usage (Progress α) := do
  let p ← p.settle
  match attached with
  | some v => p.accept o.long o.repeatable put v
  | none => return { p with pending := some ⟨o.long, o.repeatable, put, none⟩ }

/-- The text before an equals sign, and what is behind it. -/
def splitEquals (cs : List Char) : List Char × Option (List Char) :=
  match cs.span (· != '=') with
  | (name, _ :: value) => (name, some value)
  | (name, []) => (name, none)

/-- An argument of a long name. -/
def scanLong (p : Progress α) (cs : List Char) : Except Usage (Progress α) := do
  let (name, attached) := splitEquals cs
  if String.ofList name = "help" then
    if attached.isSome then throw .wrong
    discard p.settle
    throw .help
  match g.options.find? fun o => o.long == String.ofList name with
  | none => throw .wrong
  | some o =>
    match o.action with
    | .flag set => if attached.isSome then throw .wrong else meetFlag p o set
    | .value put => meetValue p o put (attached.map String.ofList)

/-- An argument of letters: flags, and possibly an option with its value behind it. -/
def scanShort (p : Progress α) : List Char → Except Usage (Progress α)
  | [] => .ok p
  | 'h' :: _ => do
    discard p.settle
    throw .help
  | c :: rest =>
    match g.options.find? fun o => o.short == some c with
    | none => .error .wrong
    | some o =>
      match o.action with
      | .flag set => do
        let p ← meetFlag p o set
        scanShort p rest
      | .value put =>
        let attached := match rest with
          | [] => none
          | '=' :: value => some (String.ofList value)
          | value => some (String.ofList value)
        meetValue p o put attached

/-- A positional argument, if one more is taken. -/
def scanPositional (p : Progress α) (text : String) : Except Usage (Progress α) := do
  match g.positionals[p.positionals]? with
  | none => throw .wrong
  | some a =>
    let p ← p.settle
    return { p with positionals := p.positionals + 1, pending := some ⟨a.name, false, a.put, some text⟩ }

/-- A request for help in words: every word has to be a command of the one before it, and none is below another. -/
def helpFor (words : List String) : Usage :=
  match words with
  | [] => .help
  | [name] => if name = "help" || g.commands.contains name then .help else .wrong
  | _ => .wrong

/-- Whether a value is to come for an option. -/
def awaits (p : Progress α) : Bool := p.pending.any fun w => w.value.isNone

/-- The arguments behind `--`, all of them positional. -/
def scanPlain (p : Progress α) : List String → Except Usage (Progress α)
  | [] => .ok p
  | text :: rest => do
    let p ← g.scanPositional p text
    scanPlain p rest

/-- The arguments up to a command below, with that command and the arguments behind it. -/
def scan (p : Progress α) : List String → Except Usage (Progress α × Option (String × List String))
  | [] => .ok (p, none)
  | text :: rest =>
    if !awaits p && g.commands.contains text then .ok (p, some (text, rest))
    else if !awaits p && !g.commands.isEmpty && text = "help" then .error (g.helpFor rest)
    else match text.toList with
      | ['-', '-'] => (g.scanPlain p rest).map fun p => (p, none)
      | '-' :: '-' :: long => do
        let p ← g.scanLong p long
        scan p rest
      | '-' :: c :: letters => do
        let p ← g.scanShort p (c :: letters)
        scan p rest
      | _ =>
        match p.pending with
        | some w =>
          if w.value.isNone then scan { p with pending := some { w with value := some text } } rest
          else do
            let p ← g.scanPositional p text
            scan p rest
        | none => do
          let p ← g.scanPositional p text
          scan p rest

/-- The record, if nothing is missing and nothing given excludes another thing. -/
def finish (p : Progress α) : Except Usage α := do
  let p ← p.settle
  let clash := g.exclusive.any fun (a, b) => p.given.contains a && p.given.contains b
  let absent := g.options.any fun o => o.required && !p.given.contains o.long
  if clash || absent || p.positionals < g.positionals.length then throw .wrong
  return p.record

/-- The record of a command that has no commands below it. -/
def parse (blank : α) (args : List String) : Except Usage α := do
  let (p, _) ← g.scan (.start blank) args
  g.finish p

end Grammar

/-! ## Options by kind -/

section

variable {α : Type}

/-- A flag. -/
def Opt.flag (long : String) (short : Option Char) (set : α → α) : Opt α := ⟨long, short, false, false, .flag set⟩

/-- An option whose value is read by a function. -/
def Opt.value {β : Type} (long : String) (short : Option Char) (read : String → Option β) (put : β → α → α) :
    Opt α :=
  ⟨long, short, false, false, .value fun text a => (read text).map (put · a)⟩

/-- The same option, but one that has to be given. -/
def Opt.needed (o : Opt α) : Opt α := { o with required := true }

/-- The same option, but one that may be given more than once. -/
def Opt.repeated (o : Opt α) : Opt α := { o with repeatable := true }

/-- A positional argument whose value is read by a function. -/
def Positional.value {β : Type} (name : String) (read : String → Option β) (put : β → α → α) : Positional α :=
  ⟨name, fun text a => (read text).map (put · a)⟩

end

end Panadapter.CommandLine
