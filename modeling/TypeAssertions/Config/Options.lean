import TypeAssertions.Diagnostic.Message
import TypeAssertions.Json.Value
import TypeAssertions.Text.Blank

/-!
# Options of a configuration

The options that a configuration may set, each with the kind of value that it takes.
`OptionKind.check` says whether a value is of a kind, and gives it in the one form in which it is
kept: choices in lower case, and truth values for the words that stand for them.
-/

namespace TypeAssertions.Config

open Json

/-- The kinds of values that options take. -/
inductive OptionKind where
  | boolean
  | string
  | number
  | list
  | object
  | any
  | choice (choices : List String)
  deriving DecidableEq, Repr

/-- The name of a kind of values. -/
def OptionKind.name : OptionKind → String
  | .boolean => "boolean"
  | .string | .choice _ => "string"
  | .number => "number"
  | .list => "Array"
  | .object | .any => "object"

/-- The choices for the language version of the output. -/
def targets : List String :=
  ["es3", "es5", "es6", "es2015", "es2016", "es2017", "es2018", "es2019", "es2020", "es2021",
    "es2022", "es2023", "es2024", "esnext"]

/-- The choices for the module system of the output. -/
def modules : List String :=
  ["none", "commonjs", "amd", "umd", "system", "es6", "es2015", "es2020", "es2022", "esnext",
    "node16", "node18", "nodenext", "preserve"]

/-- The choices for the way modules are found. -/
def moduleResolutions : List String :=
  ["classic", "node", "node10", "node16", "nodenext", "bundler"]

/-- The choices for the treatment of JSX. -/
def jsxModes : List String :=
  ["preserve", "react", "react-native", "react-jsx", "react-jsxdev"]

/-- The choices for telling modules from scripts. -/
def moduleDetections : List String :=
  ["auto", "legacy", "force"]

/-- The choices for line ends of the output. -/
def newLines : List String :=
  ["crlf", "lf"]

/-- The choices for imports that are only used as types. -/
def unusedImports : List String :=
  ["remove", "preserve", "error"]

/-- The options that take one of a list of choices. -/
def choiceOptions : List (String × List String) :=
  [("target", targets), ("module", modules), ("moduleResolution", moduleResolutions),
    ("jsx", jsxModes), ("moduleDetection", moduleDetections), ("newLine", newLines),
    ("importsNotUsedAsValues", unusedImports)]

/-- The options that take a string. -/
def stringOptions : List String :=
  ["baseUrl", "charset", "declarationDir", "generateCpuProfile", "generateTrace", "jsxFactory",
    "jsxFragmentFactory", "jsxImportSource", "mapRoot", "out", "outDir", "outFile",
    "reactNamespace", "rootDir", "sourceRoot", "tsBuildInfoFile"]

/-- The options that take a list of strings. -/
def listOptions : List String :=
  ["customConditions", "lib", "moduleSuffixes", "rootDirs", "typeRoots", "types"]

/-- The options that take a truth value. -/
def booleanOptions : List String :=
  ["allowArbitraryExtensions", "allowImportingTsExtensions", "allowJs",
    "allowSyntheticDefaultImports", "allowUmdGlobalAccess", "allowUnreachableCode",
    "allowUnusedLabels", "alwaysStrict", "assumeChangesOnlyAffectDirectDependencies", "checkJs",
    "composite", "declaration", "declarationMap", "diagnostics", "disableReferencedProjectLoad",
    "disableSizeLimit", "disableSolutionSearching", "disableSourceOfProjectReferenceRedirect",
    "downlevelIteration", "emitBOM", "emitDeclarationOnly", "emitDecoratorMetadata",
    "erasableSyntaxOnly", "esModuleInterop", "exactOptionalPropertyTypes", "experimentalDecorators",
    "explainFiles", "extendedDiagnostics", "forceConsistentCasingInFileNames", "importHelpers",
    "incremental", "inlineSourceMap", "inlineSources", "isolatedDeclarations", "isolatedModules",
    "keyofStringsOnly", "libReplacement", "listEmittedFiles", "listFiles", "noCheck", "noEmit",
    "noEmitHelpers", "noEmitOnError", "noErrorTruncation", "noFallthroughCasesInSwitch",
    "noImplicitAny", "noImplicitOverride", "noImplicitReturns", "noImplicitThis",
    "noImplicitUseStrict", "noLib", "noPropertyAccessFromIndexSignature", "noResolve",
    "noStrictGenericChecks", "noUncheckedIndexedAccess", "noUncheckedSideEffectImports",
    "noUnusedLocals", "noUnusedParameters", "preserveConstEnums", "preserveSymlinks",
    "preserveValueImports", "preserveWatchOutput", "pretty", "removeComments", "resolveJsonModule",
    "resolvePackageJsonExports", "resolvePackageJsonImports", "rewriteRelativeImportExtensions",
    "skipDefaultLibCheck", "skipLibCheck", "sourceMap", "stopBuildOnErrors", "strict",
    "strictBindCallApply", "strictBuiltinIteratorReturn", "strictFunctionTypes", "strictNullChecks",
    "strictPropertyInitialization", "stripInternal", "suppressExcessPropertyErrors",
    "suppressImplicitAnyIndexErrors", "traceResolution", "useDefineForClassFields",
    "useUnknownInCatchVariables", "verbatimModuleSyntax"]

/-- The kind of values that an option takes, if there is such an option. -/
def optionKind? (name : String) : Option OptionKind :=
  match choiceOptions.lookup name with
  | some choices => some (.choice choices)
  | none =>
    if name = "paths" then some .object
    else if name = "plugins" then some .any
    else if name = "maxNodeModuleJsDepth" then some .number
    else if name ∈ booleanOptions then some .boolean
    else if name ∈ stringOptions then some .string
    else if name ∈ listOptions then some .list
    else none

/-- A text with the ASCII letters in lower case. -/
def lowerAscii (cs : List Char) : List Char := cs.map Char.toLower

/-- The truth values that words stand for.  No letter beyond ASCII has a letter of these words as
its lower case. -/
def truthWords : List (String × Bool) :=
  [("true", true), ("1", true), ("yes", true), ("on", true), ("false", false), ("0", false),
    ("no", false), ("off", false)]

/-- The truth value that a value is or stands for. -/
def truth? : Value → Option Bool
  | .bool b => some b
  | .string s => truthWords.lookup (String.ofList (lowerAscii (Text.trim s.toList)))
  | _ => none

/-- Whether a value is a string. -/
def isString : Value → Bool
  | .string _ => true
  | _ => false

/-- Why a value is not fit for an option: it is of the wrong kind, or not among the choices. -/
inductive Misfit where
  | wrongKind (kind : String)
  | notAChoice (choices : List String)
  deriving DecidableEq, Repr

/-- A value in the form in which an option of a kind keeps it. -/
def OptionKind.check (kind : OptionKind) (v : Value) : Except Misfit Value :=
  let wrong : Except Misfit Value := .error (.wrongKind kind.name)
  match kind, v with
  | .boolean, v =>
    match truth? v with
    | some b => .ok (.bool b)
    | none => wrong
  | .string, .string _ => .ok v
  | .number, .number _ => .ok v
  | .list, .array items => if items.all isString then .ok v else wrong
  | .object, .object _ => .ok v
  | .any, v => .ok v
  | .choice choices, .string s =>
    let lowered := String.ofList (lowerAscii s.toList)
    if lowered ∈ choices then .ok (.string lowered) else .error (.notAChoice choices)
  | _, _ => wrong

/-- The diagnostic about an option of a file that is given an unfit value. -/
def Misfit.diagnostic (file : Option String) (name : String) : Misfit → Diagnostic
  | .wrongKind kind => .ofCode file Code.optionType [name, kind]
  | .notAChoice choices =>
    .ofCode file Code.optionChoice
      [name, String.intercalate ", " (choices.map fun c => s!"'{c}'")]

end TypeAssertions.Config
