import EffectLink.Header
import EffectLink.Stage

namespace EffectLink

/-- A live uniform: its name, type id, and byte offset if it lies in a block. -/
structure LiveUniform where
  name : String
  type : UInt32
  offset : Option UInt32
  deriving DecidableEq

/-- Type ids from here on are samplers, images and other resources without an offset. -/
def resourceTypes : UInt32 := 0x8B5D

/-- What a linked program uses, in the backend's order. -/
structure LiveSet where
  blocks : List String
  uniforms : List LiveUniform
  deriving DecidableEq

/-- A backend with compiled stages of type `U`. Failures carry the backend's log. Each question names
its subject, the identity of the shader or the name of the program that it is asked for. No subject has
the same question asked twice in a run, so a backend is free to answer like questions differently. -/
structure Backend (U : Type) where
  name : String
  acquire : Except String Unit
  compile (header : Header) (subject : String) (stage : Stage) (source : String) : Except String U
  link (subject : String) (units : List (Stage × U)) : Except String Unit
  reflect (subject : String) (units : List (Stage × U)) : Except String LiveSet
  binary (subject : String) (units : List (Stage × U)) (stage : Stage) : Except String (List UInt32)

/-- What is asked of a program object of the backend. -/
inductive ObjectCall where
  | create
  | add (stage : Stage)
  | link
  | reflect
  | translate (stage : Stage)
  deriving DecidableEq

/-- What a session asks of the backend and of the file system. -/
inductive Call where
  | acquire
  | compile (stage : Stage) (source : String)
  /-- Of the program object that belongs to a program. -/
  | object (program : String) (call : ObjectCall)
  /-- To write a file, whether it comes to that or not. -/
  | write (path : String)
  | release
  deriving DecidableEq

end EffectLink
