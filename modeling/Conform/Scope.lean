import Conform.Span
import Conform.Table
import Conform.Ty.Basic

/-!
# Scopes

What names mean at a point of a module. A frame holds what is declared together: records,
functions, declarations that failed (poisoned names) and variables. A scope is the frame of the
point and the frames around it, innermost first; a name means what the innermost frame that
declares it says, for each kind of declaration on its own.

A name used as a value or called is a variable before it is a function. A poisoned name is known to
exist, and nothing more is known of it.
-/

namespace Conform

/-- What is known of a variable. -/
inductive Binding where
  | typed (ty : Ty)
  /-- Assigned without a type: whatever is done with it is accepted. -/
  | untyped
deriving DecidableEq

/-- The type of a variable, if it has one. -/
def Binding.ty? : Binding → Option Ty
  | typed ty => some ty
  | untyped => none

/-- The binding of a variable whose annotation denotes `ty?`. -/
def Binding.ofOption (ty? : Option Ty) : Binding :=
  match ty? with
  | some ty => typed ty
  | none => untyped

/-- Something declared, and where its declaration stands. -/
structure Declared (α : Type) where
  value : α
  span : Span

/-- What is declared together. -/
structure Frame where
  records : Table (Declared Ty)
  functions : Table (Declared Signature)
  poisoned : List String
  locals : Table Binding

def Frame.empty : Frame :=
  ⟨.empty, .empty, [], .empty⟩

/-- The frame of a point, and the frames around it, innermost first. -/
structure Scope where
  current : Frame
  outer : List Frame

namespace Scope

def empty : Scope := ⟨.empty, []⟩

def frames (s : Scope) : List Frame :=
  s.current :: s.outer

/-! ## Opening and closing -/

def push (s : Scope) : Scope :=
  ⟨.empty, s.frames⟩

/-- Closes the current frame, if another one is around it. -/
def pop? (s : Scope) : Option Scope :=
  match s.outer with
  | frame :: outer => some ⟨frame, outer⟩
  | [] => none

def depth (s : Scope) : Nat :=
  s.outer.length

/-! ## Declaring in the current frame -/

def declareRecord (s : Scope) (name : String) (ty : Ty) (span : Span) : Scope :=
  { s with current.records := s.current.records.insert name ⟨ty, span⟩ }

def declareFunction (s : Scope) (name : String) (signature : Signature) (span : Span) : Scope :=
  { s with current.functions := s.current.functions.insert name ⟨signature, span⟩ }

/-- Marks a declaration that failed. -/
def poison (s : Scope) (name : String) : Scope :=
  { s with current.poisoned := name :: s.current.poisoned }

def bind (s : Scope) (name : String) (binding : Binding) : Scope :=
  { s with current.locals := s.current.locals.insert name binding }

/-- The number of records that the current frame declares. -/
def recordCount (s : Scope) : Nat :=
  s.current.records.size

/-- The number of functions that the current frame declares. -/
def functionCount (s : Scope) : Nat :=
  s.current.functions.size

/-! ## Looking up -/

def record? (s : Scope) (name : String) : Option (Declared Ty) :=
  s.frames.findSome? fun frame => frame.records.get? name

def function? (s : Scope) (name : String) : Option (Declared Signature) :=
  s.frames.findSome? fun frame => frame.functions.get? name

def local? (s : Scope) (name : String) : Option Binding :=
  s.frames.findSome? fun frame => frame.locals.get? name

/-- Whether a name is that of a declaration that failed. -/
def isPoisoned (s : Scope) (name : String) : Bool :=
  s.frames.any fun frame => frame.poisoned.contains name

/-- The type of a name used as a value. -/
def valueType? (s : Scope) (name : String) : Option Ty :=
  match s.local? name with
  | some binding => binding.ty?
  | none => (s.function? name).map (·.value.ty)

def callable? (s : Scope) (name : String) : Option Signature :=
  match s.local? name with
  | some binding => binding.ty?.bind Ty.signature?
  | none => (s.function? name).map (·.value)

def isBound (s : Scope) (name : String) : Bool :=
  (s.local? name).isSome || (s.function? name).isSome || (s.record? name).isSome ||
    s.isPoisoned name

end Scope

end Conform
