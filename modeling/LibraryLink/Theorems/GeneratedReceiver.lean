import LibraryLink.GeneratedReceiver
import LibraryLink.Theorems.GeneratedClasses
import LibraryLink.Theorems.Wrappers

/-!
# What a wrapper's call does in the generated receiver

The wrappers and the receiver are generated in two runs from one model. Each wrapper of the one output is served by the handler that the
other has for the same function, and the handler makes the call that the wrapper stands for, with a result of the kind that the wrapper
takes.
-/

namespace LibraryLink.Generator

open Cpp.Process (CType Env Library Ret SameTable State argumentValue)
open Tables (mem_of_lookup)

variable {T : Type} {parser : ModelParser T}

/-! ## The dispatch -/

variable {kotlinSource cppSource : LibraryDecl T} {wrappers receiver : Output}

/-- A function whose handler is known: with parameters of the types `Int`, `Boolean` and reference types (and `self`), and with a result
that the handler deals with as `ret`. -/
structure Plain (ctype : String → CType) (parser : ModelParser T) (kotlinTypes cppTypes : List (TypeDecl T))
    (function : FunctionDecl T) (handler : Method) (ret : Ret) : Prop where
  ret : handler.ret ctype = some ret
  declared : ∀ kotlin cpp, withSelfTypeDecl parser kotlinTypes function.entity = some kotlin →
    withSelfTypeDecl parser cppTypes function.entity = some cpp →
    ∀ a ∈ function.args, parser.isSelf a.type = false → Declared parser kotlin cpp a.type

end LibraryLink.Generator
