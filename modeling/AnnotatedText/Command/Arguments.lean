/-!
# Command line arguments

Arguments are read from left to right into a record. An option has a long name and perhaps a letter;
it takes one value, which stands in the same argument or in the next one, or none. Letters without
values may be joined with further letters. Arguments that are no options, and all those behind two
hyphens, are values of the positional parameter.

The values of an option or of the positional parameter are looked at only when the next one of
another begins, or at the end; an argument that is not understood is reported before them.
-/

namespace AnnotatedText.Arguments

/-- Why arguments are refused. -/
inductive Fault where
  /-- A value of which its parameter says what is wrong with it. -/
  | badValue (detail : String)
  /-- A parameter without the value it needs. -/
  | noValue
  /-- A flag with a value. -/
  | excessValue
  | repeated
  | unknown
  | missing
  /-- Not a fault, but the end of the reading as well. -/
  | helpRequested
  deriving DecidableEq

/-- What an option does. -/
inductive OptionKind where
  | flag
  | valued
  | help
  deriving DecidableEq

/-- An option that stands for the parameter `id`. -/
structure Opt (ι : Type) where
  id : ι
  long : String
  letter? : Option Char
  kind : OptionKind

/-- The parameters of a command. -/
structure Grammar (ι σ : Type) where
  options : List (Opt ι)
  positional? : Option ι
  /-- Stores a value of a parameter; a flag has the empty value. -/
  store : ι → String → σ → Except Fault σ

/-- How far the arguments are read. -/
structure State (ι σ : Type) where
  result : σ
  /-- The options that were stored. -/
  given : List ι
  /-- The parameter that was begun last, with its values in reverse. -/
  pending? : Option (ι × List String)
  /-- Whether the next argument is the value of an option. -/
  expecting : Bool
  /-- Whether two hyphens have been met. -/
  trailing : Bool

section

variable {ι σ : Type} [DecidableEq ι]

namespace State

/-- The state before the first argument. -/
def initial (result : σ) : State ι σ := ⟨result, [], none, false, false⟩

/-- Stores values one after the other. -/
def storeAll (g : Grammar ι σ) (id : ι) : List String → σ → Except Fault σ
  | [], r => .ok r
  | v :: rest, r =>
    match g.store id v r with
    | .error e => .error e
    | .ok r => storeAll g id rest r

/-- Stores the values of a parameter. An option must not have been stored before. -/
def finish (g : Grammar ι σ) (s : State ι σ) (id : ι) (values : List String) :
    Except Fault (State ι σ) :=
  if values = [] then .error .noValue
  else if g.positional? ≠ some id ∧ id ∈ s.given then .error .repeated
  else (storeAll g id values s.result).map fun r => { s with result := r, given := id :: s.given }

/-- Stores the values of the parameter that was begun last. -/
def settle (g : Grammar ι σ) (s : State ι σ) : Except Fault (State ι σ) :=
  match s.pending? with
  | none => .ok s
  | some (id, values) =>
    finish g { s with pending? := none, expecting := false } id values.reverse

/-- Reads an option with the value that is attached to it, if any. -/
def readOption (g : Grammar ι σ) (s : State ι σ) (o : Opt ι) (attached? : Option String) :
    Except Fault (State ι σ) :=
  match o.kind, attached? with
  | .valued, some v =>
    match s.settle g with
    | .error e => .error e
    | .ok s => s.finish g o.id [v]
  | .valued, none =>
    (s.settle g).map fun s => { s with pending? := some (o.id, []), expecting := true }
  | .flag, some _ | .help, some _ => .error .excessValue
  | .flag, none =>
    match s.settle g with
    | .error e => .error e
    | .ok s => s.finish g o.id [""]
  | .help, none =>
    match s.settle g with
    | .error e => .error e
    | .ok _ => .error .helpRequested

/-- Reads an argument behind its two hyphens. -/
def readLong (g : Grammar ι σ) (s : State ι σ) (cs : List Char) : Except Fault (State ι σ) :=
  let name := String.ofList (cs.takeWhile (· != '='))
  let attached? := match cs.dropWhile (· != '=') with
    | [] => none
    | _ :: value => some (String.ofList value)
  match g.options.find? (·.long == name) with
  | none => .error .unknown
  | some o => s.readOption g o attached?

/-- The value attached to a letter, behind an equals sign or right behind it. -/
def attachedTo : List Char → Option String
  | [] => none
  | '=' :: value => some (String.ofList value)
  | value => some (String.ofList value)

/-- Reads the letters of an argument behind its hyphen. -/
def readLetters (g : Grammar ι σ) (s : State ι σ) : List Char → Except Fault (State ι σ)
  | [] => .ok s
  | c :: rest =>
    match g.options.find? (·.letter? == some c) with
    | none => .error .unknown
    | some o =>
      if o.kind = .valued then s.readOption g o (attachedTo rest)
      else
        match s.readOption g o none with
        | .error e => .error e
        | .ok s => s.readLetters g rest

/-- Reads an argument as the value that is expected, or as one of the positional parameter. -/
def readValue (g : Grammar ι σ) (s : State ι σ) (arg : String) : Except Fault (State ι σ) :=
  match s.expecting && !s.trailing, s.pending? with
  | true, some (id, values) =>
    .ok { s with pending? := some (id, arg :: values), expecting := false }
  | _, pending? =>
    match g.positional? with
    | none => .error .unknown
    | some id =>
      match pending? with
      | some (other, values) =>
        if other = id then .ok { s with pending? := some (id, arg :: values) }
        else (s.settle g).map fun s => { s with pending? := some (id, [arg]) }
      | none => .ok { s with pending? := some (id, [arg]) }

/-- Reads an argument. -/
def readArgument (g : Grammar ι σ) (s : State ι σ) (arg : String) : Except Fault (State ι σ) :=
  if s.trailing then s.readValue g arg
  else match arg.toList with
    | ['-', '-'] => .ok { s with trailing := true }
    | '-' :: '-' :: cs => s.readLong g cs
    | '-' :: c :: cs => s.readLetters g (c :: cs)
    | _ => s.readValue g arg

/-- Reads arguments up to the last one. -/
def readAll (g : Grammar ι σ) : List String → State ι σ → Except Fault (State ι σ)
  | [], s => s.settle g
  | arg :: rest, s =>
    match s.readArgument g arg with
    | .error e => .error e
    | .ok s => readAll g rest s

end State

/-- Reads arguments into a record, behind the name of the program. -/
def read (g : Grammar ι σ) (initial : σ) (args : List String) : Except Fault σ :=
  (State.readAll g (args.drop 1) (.initial initial)).map State.result

end

end AnnotatedText.Arguments
