namespace SketchLang

inductive InputError.Kind where
  | invalidInput
  | invalidData
deriving DecidableEq

structure InputError where
  kind : InputError.Kind
  description : String
deriving DecidableEq

end SketchLang
