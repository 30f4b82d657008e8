import Accessors.Config
import Accessors.Generation.Invocation
import Accessors.Text.Lowercase

/-!
The name of a generated file. It stands beside the file that set generation off, and joins that file's stem,
the type's name in lower case and a mark.
-/

namespace Accessors

/-- The mark at the end of a generated file's stem. -/
def generatedMark : String := "gen_v2"

def defaultExtension : String := "rs"

/-- The name of the file with the accessors of a type. -/
def outputName (source : File.Path) (typeName : String) : String :=
  String.ofList (source.fileStem?.getD []) ++ "_" ++ Text.lower typeName ++ "_" ++ generatedMark ++ "."
    ++ (source.extension?.map String.ofList).getD defaultExtension

/-- The path of the file with the accessors of a type. -/
def outputPath (source : File.Path) (typeName : String) : File.Path :=
  source.withFileName (outputName source typeName)

/-- Where a run writes the accessors of a type. -/
def plannedOutput (config : Config) (invocation : Invocation) (typeName : String) : File.Path :=
  config.outputDir.join (outputPath invocation.sourceFile typeName)

end Accessors
