import ReflectGen.Settings.Basic

/-!
# The settings of the program

What the commands can be told, with defaults, environment variables and allowed words.
-/

namespace ReflectGen

namespace Settings

/-- A setting with a text. -/
def text (identifier : String) (declared : String) (environment : Option String) : Setting :=
  { identifier := lit identifier, kind := .text, declared := lit declared,
    environment := environment.map lit }

/-- A setting with a list. -/
def list (identifier : String) (declared : String) (environment : Option String) : Setting :=
  { text identifier declared environment with kind := .list }

/-- A setting that is on or off, and off by default. -/
def flag (identifier : String) (environment : Option String) : Setting :=
  { text identifier "" environment with kind := .flag }

/-- A setting with one of several words. -/
def choice (identifier : String) (declared : String) (choices : List String)
    (environment : Option String) : Setting :=
  { text identifier declared environment with choices := choices.map lit }

/-- Where log lines go. -/
def log : Section where
  name := lit "log"
  settings :=
    [choice "Level" "info" ["trace", "debug", "info", "warn", "error"] (some "VXREFL_LOG_LEVEL"),
      text "File" "" (some "VXREFL_LOG_FILE"),
      text "RawFile" "" (some "VXREFL_LOG_RAW_FILE")]

/-- The configuration file. -/
def config : Section where
  settings := [{ text "Config" "" (some "VXREFL_CONFIG") with isPath := true }]

/-- The files to be scanned. -/
def patterns : Section where
  settings :=
    [list "Include" "**/*.h,**/*.hpp,**/*.hh,**/*.cpp,**/*.cxx,**/*.cc" (some "VXREFL_INCLUDE"),
      list "Exclude" "**/*_reflection.cpp,.git/**" (some "VXREFL_EXCLUDE")]

/-- The names of the marker macros. -/
def tokens : Section where
  name := lit "token"
  settings :=
    [text "Begin" "VX_RF_DATA_BEGIN" (some "VXREFL_TOKEN_BEGIN"),
      text "Data" "VX_RF_DATA" (some "VXREFL_TOKEN_DATA"),
      text "End" "VX_RF_DATA_END" (some "VXREFL_TOKEN_END")]

/-- The names in generated files. -/
def emission : Section where
  name := lit "emit"
  settings :=
    [text "Suffix" "_reflection.cpp" (some "VXREFL_SUFFIX"),
      text "GlobalPrefix" "g_rf_" (some "VXREFL_GLOBAL_PREFIX"),
      text "Namespace" "::vx" (some "VXREFL_NAMESPACE"),
      text "HashFunc" "::vx::murmurhash" (some "VXREFL_HASH_FUNC"),
      text "HashType" "vx::hash_type" (some "VXREFL_HASH_TYPE"),
      { text "IDField" "s_reflectionId" (some "VXREFL_ID_FIELD") with
        explicitName := lit "id-field" },
      list "Includes" "" (some "VXREFL_INCLUDES")]

/-- How generated files are treated. -/
def modes : Section where
  settings :=
    [flag "Check" (some "VXREFL_CHECK"), flag "DryRun" (some "VXREFL_DRY_RUN"),
      choice "Progress" "auto" ["auto", "always", "never"] (some "VXREFL_PROGRESS")]

/-- How a record set is written. -/
def dump : Section where
  settings :=
    [choice "Format" "json" ["json", "yaml", "toml"] none,
      { text "Output" "" none with isPath := true },
      text "Suffix" "_reflection.cpp" none]

/-- How a configuration template is written. -/
def initialization : Section where
  settings :=
    [choice "Format" "yaml" ["json", "yaml", "toml"] none,
      text "Output" "" none,
      flag "Force" none]

/-- The settings of all commands. -/
def shared : List Section := [config, log]

/-- The settings of the command that generates sources. -/
def generate : List Section := [patterns, tokens, emission, modes]

/-- The settings of the command that prints record sets. -/
def scan : List Section := [patterns, tokens, dump]

/-- The settings of the command that writes a configuration template. -/
def configInit : List Section := [initialization]

end Settings

end ReflectGen
