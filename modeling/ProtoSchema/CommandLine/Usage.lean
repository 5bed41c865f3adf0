/-!
# The texts of the command line

The usage stands in front of every error about the arguments and at the top of the help.
-/

namespace ProtoSchema.CommandLine

/-- The name of the program. -/
def programName : String := "pyd2proto"

/-- How the program is called. -/
def usage : String :=
  "usage: pyd2proto [-h] [--model NAME] [--package PACKAGE]\n" ++
  "                 [--root-message ROOT_MESSAGE] [--type-prefix TYPE_PREFIX]\n" ++
  "                 [--qualify-names] [-o OUT] [-v] [--version]\n" ++
  "                 FILE\n"

/-- What the program is called with, in full. -/
def help : String :=
  usage ++
  "\n" ++
  "pyd2proto: Pydantic to Protocol Buffers schema compiler\n" ++
  "\n" ++
  "positional arguments:\n" ++
  "  FILE                  Python file defining Pydantic models\n" ++
  "\n" ++
  "options:\n" ++
  "  -h, --help            show this help message and exit\n" ++
  "  --model NAME          Name of the model to compile\n" ++
  "  --package PACKAGE     Protobuf package name\n" ++
  "  --root-message ROOT_MESSAGE\n" ++
  "                        Name of the root message\n" ++
  "  --type-prefix TYPE_PREFIX\n" ++
  "                        Prefix for generated type names\n" ++
  "  --qualify-names       Name nested types after their full field path\n" ++
  "  -o OUT, --output OUT  Write the schema to OUT instead of stdout\n" ++
  "  -v, --verbose         Enable debug logging\n" ++
  "  --version             show program's version number and exit\n" ++
  "\n" ++
  "Examples:\n" ++
  "  pyd2proto models.py                           Compile the only model in models.py\n" ++
  "  pyd2proto models.py --model User -o user.proto\n" ++
  "  pyd2proto models.py --package fleet.v1 --type-prefix Fleet\n" ++
  "        \n"

/-- The version of the program. -/
def versionLine : String := programName ++ " 0.1.0\n"

/-- What is reported about arguments that make no sense. -/
def usageError (message : String) : String :=
  usage ++ programName ++ ": error: " ++ message ++ "\n"

end ProtoSchema.CommandLine
