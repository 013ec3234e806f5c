import Dialogue.Compile

/-!
# Stages

What can be told about a compilation while it runs: one report for every stage that was passed.
-/

namespace Dialogue

open Script

inductive Stage where
  | segmented (units : Nat)
  | classified (instructions : Nat)
  | assembled (code data : Nat)
  | packaged (bytes : Nat) (legacyDataSize : Bool)
  deriving DecidableEq

def Stage.message (s : Stage) : String :=
  "level=DEBUG msg=" ++ match s with
    | segmented units => "segmented units=" ++ Numeral.decimal units
    | classified instructions => "classified instructions=" ++ Numeral.decimal instructions
    | assembled code data =>
      "assembled code=" ++ Numeral.decimal code ++ " data=" ++ Numeral.decimal data
    | packaged bytes legacy =>
      "packaged bytes=" ++ Numeral.decimal bytes ++ " legacy_data_size="
        ++ (if legacy then "true" else "false")

def stages (source : Bytes) (opts : CompileOptions) : List Stage :=
  match LexUnit.ofSource source with
  | .error _ => []
  | .ok units =>
    .segmented units.length ::
      match instructions units with
      | .error _ => []
      | .ok is =>
        .classified is.length ::
          match Program.assemble opts.order is with
          | .error _ => []
          | .ok p =>
            [.assembled p.code.length p.data.length,
              .packaged (p.package opts.toModuleOptions).length opts.legacyDataSize]

end Dialogue
