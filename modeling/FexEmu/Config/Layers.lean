import Mathlib.Tactic
/-!
# Configuration layers

The layers of `Config.cpp` and the meta layer with its fix ups. The host's answers are data, as is the order of an
`unordered_map`.
-/
namespace FexEmu.Config

/-! ## Options -/

/-- The options of Config.json.in. -/
inductive ConfigOption
  | CORE | MULTIBLOCK | MAXINST | THREADS | CACHEOBJECTCODECOMPILATION | ENABLEAVX
  | ROOTFS | THUNKHOSTLIBS | THUNKGUESTLIBS | THUNKCONFIG | ENV | HOSTENV | ADDITIONALARGUMENTS
  | SINGLESTEP | GDBSERVER | DUMPIR | DUMPGPRS | O0 | SRA | FORCE32BITALLOCATOR | GLOBALJITNAMING | LIBRARYJITNAMING
  | BLOCKJITNAMING | GDBSYMBOLS
  | SILENTLOG | OUTPUTLOG
  | SMCCHECKS | TSOENABLED | TSOAUTOMIGRATION | X87REDUCEDPRECISION | ABILOCALFLAGS | ABINOPF | PARANOIDTSO | STALLPROCESS
  | X86DEC_SYNCHRONIZERIPONALLBLOCKS
  | AOTIRCAPTURE | AOTIRGENERATE | AOTIRLOAD | SERVERSOCKETPATH
  | IS_INTERPRETER | INTERPRETER_INSTALLED | APP_FILENAME | APP_CONFIG_NAME | IS64BIT_MODE
deriving DecidableEq, Repr

/-- A `std::list` of strings that is not empty. -/
structure LayerValue where
  front : String
  rest : List String
deriving DecidableEq, Repr

namespace LayerValue

def toList (v : LayerValue) : List String := v.front :: v.rest

def emplaceBack (v : LayerValue) (data : String) : LayerValue := { v with rest := v.rest ++ [data] }

def single (data : String) : LayerValue := ⟨data, []⟩

end LayerValue

abbrev LayerOptions := ConfigOption → Option LayerValue

namespace LayerOptions

def empty : LayerOptions := fun _ => none

def optionExists (m : LayerOptions) (o : ConfigOption) : Bool := (m o).isSome

def get (m : LayerOptions) (o : ConfigOption) : Option String := (m o).map LayerValue.front

def set (m : LayerOptions) (o : ConfigOption) (data : String) : LayerOptions :=
  Function.update m o (some (match m o with
    | none => .single data
    | some v => v.emplaceBack data))

def erase (m : LayerOptions) (o : ConfigOption) : LayerOptions := Function.update m o none

def eraseSet (m : LayerOptions) (o : ConfigOption) (data : String) : LayerOptions := (m.erase o).set o data

end LayerOptions

/-- What the configuration asks the host for. -/
structure Host where
  isX86 : Bool
  interpreterEnabled : Bool
  /-- `get_nprocs_conf`. -/
  nprocs : Nat
  nprocs_pos : 0 < nprocs
  nprocs_lt : nprocs < 2 ^ 31
  pathExists : String → Bool
  absolute : String → String
  home : String
  containerPrefix : String
  dataDirectory : String
  iterate : List (String × String) → List (String × String)
  iterate_perm : ∀ l, (iterate l).Perm l

/-! ## Numbers -/

def digitValue (c : Char) : Option Nat :=
  if c.isDigit then some (c.toNat - '0'.toNat)
  else if 'a' ≤ c ∧ c ≤ 'f' then some (c.toNat - 'a'.toNat + 10)
  else if 'A' ≤ c ∧ c ≤ 'F' then some (c.toNat - 'A'.toNat + 10)
  else none

def isDigitOf (base : Nat) (c : Char) : Bool := (digitValue c).any (· < base)

def basePrefix : List Char → Nat × List Char
  | '0' :: x :: c :: rest => if (x = 'x' ∨ x = 'X') ∧ isDigitOf 16 c then (16, c :: rest) else (8, '0' :: x :: c :: rest)
  | '0' :: rest => (8, '0' :: rest)
  | cs => (10, cs)

def digitsValue (base : Nat) (cs : List Char) : Option Nat :=
  match cs.takeWhile (isDigitOf base) with
  | [] => none
  | digits => some (digits.foldl (fun n c => base * n + (digitValue c).getD 0) 0)

def signed : List Char → Option Int
  | '-' :: cs => (digitsValue (basePrefix cs).1 (basePrefix cs).2).map fun n => -(n : Int)
  | '+' :: cs => (digitsValue (basePrefix cs).1 (basePrefix cs).2).map Int.ofNat
  | cs => (digitsValue (basePrefix cs).1 (basePrefix cs).2).map Int.ofNat

def isSpace (c : Char) : Bool := c = ' ' || ('\t' ≤ c && c ≤ '\r')

/-- `std::stoi` with base 0, which throws for what is no number and for numbers that are no `int`. -/
def stoi (s : String) : Option Int :=
  (signed (s.toList.dropWhile isSpace)).filter fun n => -2 ^ 31 ≤ n && n < 2 ^ 31

/-- `Conv` to an `uint32_t`. -/
def conv (s : String) : Option Nat := (stoi s).map fun n => (n % 2 ^ 32).toNat

/-- `FEX_CONFIG_OPT` for an `uint32_t`. -/
def uint32Opt (m : LayerOptions) (o : ConfigOption) (default : Nat) : Option Nat :=
  match m.get o with
  | none => some default
  | some v => conv v

/-- A string at its first `=`. -/
def splitFirst (s : String) : Option (String × String) :=
  match s.toList.span (· ≠ '=') with
  | (_, []) => none
  | (key, _ :: value) => some (String.ofList key, String.ofList value)

/-- A string at its last `=`. -/
def splitLast (s : String) : Option (String × String) :=
  match s.toList.reverse.span (· ≠ '=') with
  | (_, []) => none
  | (value, _ :: key) => some (String.ofList key.reverse, String.ofList value.reverse)

/-- `insert_or_assign` of an `unordered_map`. -/
def insertOrAssign (map : List (String × String)) (entry : String × String) : List (String × String) :=
  map.filter (fun e => e.1 ≠ entry.1) ++ [entry]

/-- `LookupMap` after two calls of `AddToMap`. Strings without a `=` are skipped. -/
def lookupMap (old new : LayerValue) : List (String × String) :=
  ((old.toList ++ new.toList).filterMap splitFirst).foldl insertOrAssign []

def mergeEnvironmentVariables (h : Host) (o : ConfigOption) (value : LayerValue) (m : LayerOptions) : LayerOptions :=
  match m o with
  | none => Function.update m o (some value)
  | some old =>
    (h.iterate (lookupMap old value)).foldl (fun m val => m.set o (val.1 ++ "=" ++ val.2)) (m.erase o)

/-! ## The meta layer -/

/-- The layers, under the source's names. -/
inductive LayerType
  | LAYER_GLOBAL_MAIN
  | LAYER_MAIN
  | LAYER_ARGUMENTS
  | LAYER_GLOBAL_APP
  | LAYER_LOCAL_APP
  | LAYER_ENVIRONMENT
  | LAYER_TOP
deriving DecidableEq, Repr

def loadOrder : List LayerType :=
  [.LAYER_GLOBAL_MAIN, .LAYER_MAIN, .LAYER_GLOBAL_APP, .LAYER_LOCAL_APP, .LAYER_ARGUMENTS, .LAYER_ENVIRONMENT, .LAYER_TOP]

/-- The layers that were added to the meta layer, and its own options. -/
structure State where
  layers : LayerType → Option LayerOptions
  options : LayerOptions

def State.initial : State := ⟨fun _ => none, .empty⟩

/-- `AddLayer`. The meta layer is the one at the top. -/
def State.addLayer (s : State) (type : LayerType) (options : LayerOptions) : State :=
  if type = .LAYER_TOP ∨ (s.layers type).isSome then s
  else { s with layers := Function.update s.layers type (some options) }

/-- All options, in the order of `ConfigValues.inl`. -/
def allOptions : List ConfigOption :=
  [.CORE, .MULTIBLOCK, .MAXINST, .THREADS, .CACHEOBJECTCODECOMPILATION, .ENABLEAVX, .ROOTFS, .THUNKHOSTLIBS, .THUNKGUESTLIBS,
    .THUNKCONFIG, .ENV, .HOSTENV, .ADDITIONALARGUMENTS, .SINGLESTEP, .GDBSERVER, .DUMPIR, .DUMPGPRS, .O0, .SRA,
    .FORCE32BITALLOCATOR, .GLOBALJITNAMING, .LIBRARYJITNAMING, .BLOCKJITNAMING, .GDBSYMBOLS, .SILENTLOG, .OUTPUTLOG,
    .SMCCHECKS, .TSOENABLED, .TSOAUTOMIGRATION, .X87REDUCEDPRECISION, .ABILOCALFLAGS, .ABINOPF, .PARANOIDTSO, .STALLPROCESS,
    .X86DEC_SYNCHRONIZERIPONALLBLOCKS, .AOTIRCAPTURE, .AOTIRGENERATE, .AOTIRLOAD, .SERVERSOCKETPATH, .IS_INTERPRETER,
    .INTERPRETER_INSTALLED, .APP_FILENAME, .APP_CONFIG_NAME, .IS64BIT_MODE]

def mergeOption (h : Host) (options m : LayerOptions) (o : ConfigOption) : LayerOptions :=
  match options o with
  | none => m
  | some value =>
    if o = .ENV ∨ o = .HOSTENV then mergeEnvironmentVariables h o value m else Function.update m o (some value)

def mergeConfigMap (h : Host) (m options : LayerOptions) : LayerOptions := allOptions.foldl (mergeOption h options) m

def load (h : Host) (layers : LayerType → Option LayerOptions) : LayerOptions :=
  loadOrder.foldl (fun m type =>
    match layers type with
    | some options => if type ≠ .LAYER_TOP then mergeConfigMap h m options else m
    | none => m) .empty

def isRelative (path : String) : Bool := path.toList.head? ≠ some '/'

/-- `ExpandPath`, empty if the path stays as it is. -/
def expandPath (h : Host) (path : String) : String :=
  if path = "" then ""
  else if isRelative path then
    if path.toList.head? = some '~' then h.home ++ String.ofList path.toList.tail
    else if h.pathExists (h.absolute path) then h.absolute path else ""
  else if h.containerPrefix ≠ "" ∧ h.pathExists path = false ∧ h.pathExists (h.containerPrefix ++ path) = true then
    h.containerPrefix ++ path
  else ""

/-! ## Fix ups -/

def fixThreads (h : Host) (m : LayerOptions) : Option LayerOptions :=
  (uint32Opt m .THREADS 0).map fun cores => if cores = 0 then m.eraseSet .THREADS (toString h.nprocs) else m

def maxCoreNumber (h : Host) : Nat := if h.isX86 then 2 else 1

def minCoreNumber (h : Host) : Nat := if h.interpreterEnabled then 0 else 1

/-- `CONFIG_INTERPRETER` is 0 and `CONFIG_IRJIT` is 1. -/
def fixCore (h : Host) (m : LayerOptions) : Option LayerOptions :=
  if m.optionExists .CORE then
    (uint32Opt m .CORE 1).map fun core =>
      if maxCoreNumber h < core ∨ core < minCoreNumber h then m.eraseSet .CORE (toString 1) else m
  else some m

def fixCacheObjectCodeCompilation (m : LayerOptions) : Option LayerOptions :=
  if m.optionExists .CACHEOBJECTCODECOMPILATION then
    (uint32Opt m .CACHEOBJECTCODECOMPILATION 0).bind fun cache => (uint32Opt m .CORE 1).map fun core =>
      if cache ≠ 0 ∧ core = 0 then m.erase .CACHEOBJECTCODECOMPILATION else m
  else some m

def expandPathIfExists (h : Host) (o : ConfigOption) (m : LayerOptions) : LayerOptions :=
  match m.get o with
  | none => m
  | some path => if expandPath h path ≠ "" then m.eraseSet o (expandPath h path) else m

/-- A path, or the name of something in a folder of the data directory. -/
def expandNamed (h : Host) (o : ConfigOption) (folder : String) (m : LayerOptions) : LayerOptions :=
  match m.get o with
  | none => m
  | some path =>
    if expandPath h path ≠ "" then m.eraseSet o (expandPath h path)
    else if path ≠ "" ∧ h.pathExists (h.dataDirectory ++ folder ++ path) = true then
      m.eraseSet o (h.dataDirectory ++ folder ++ path)
    else m

def fixRootFS (h : Host) : LayerOptions → LayerOptions := expandNamed h .ROOTFS "RootFS/"

def fixThunkHostLibs (h : Host) : LayerOptions → LayerOptions := expandPathIfExists h .THUNKHOSTLIBS

def fixThunkGuestLibs (h : Host) : LayerOptions → LayerOptions := expandPathIfExists h .THUNKGUESTLIBS

def fixThunkConfig (h : Host) : LayerOptions → LayerOptions := expandNamed h .THUNKCONFIG "ThunkConfigs/"

def fixOutputLog (h : Host) (m : LayerOptions) : LayerOptions :=
  if m.get .OUTPUTLOG ≠ some "stdout" ∧ m.get .OUTPUTLOG ≠ some "stderr" then expandPathIfExists h .OUTPUTLOG m else m

def fixSingleStep (m : LayerOptions) : LayerOptions :=
  if m.optionExists .SINGLESTEP then m.set .MAXINST (toString 1) else m

/-- `ReloadMetaLayer`, nothing if a number cannot be converted. -/
def reloadMetaLayer (h : Host) (s : State) : Option State :=
  ((fixThreads h (load h s.layers)).bind fun m => (fixCore h m).bind fixCacheObjectCodeCompilation).map fun m =>
    { s with options := fixSingleStep (fixOutputLog h (fixThunkConfig h (fixThunkGuestLibs h (fixThunkHostLibs h (fixRootFS h m))))) }

/-- The calls that change the merged layer. -/
inductive Call
  | addLayer (type : LayerType) (options : LayerOptions)
  | reloadMetaLayer

def Call.run (h : Host) (s : State) : Call → Option State
  | .addLayer type options => some (s.addLayer type options)
  | .reloadMetaLayer => Config.reloadMetaLayer h s

def run (h : Host) (calls : List Call) : Option State := calls.foldlM (Call.run h) .initial

def Call.adds (type : LayerType) : Call → Option LayerOptions
  | .addLayer type' options => if type' = type then some options else none
  | .reloadMetaLayer => none

/-- The layers after a number of calls: the first one of a type stays. -/
def added (calls : List Call) (type : LayerType) : Option LayerOptions :=
  if type = .LAYER_TOP then none else calls.findSome? (Call.adds type)

/-! ## The environment layer -/

/-- The key of an option in `EnvConfigLookup`. -/
def envKey : ConfigOption → String
  | .CORE => "FEX_CORE"
  | .MULTIBLOCK => "FEX_MULTIBLOCK"
  | .MAXINST => "FEX_MAXINST"
  | .THREADS => "FEX_THREADS"
  | .CACHEOBJECTCODECOMPILATION => "FEX_CACHEOBJECTCODECOMPILATION"
  | .ENABLEAVX => "FEX_ENABLEAVX"
  | .ROOTFS => "FEX_ROOTFS"
  | .THUNKHOSTLIBS => "FEX_THUNKHOSTLIBS"
  | .THUNKGUESTLIBS => "FEX_THUNKGUESTLIBS"
  | .THUNKCONFIG => "FEX_THUNKCONFIG"
  | .ENV => "FEX_ENV"
  | .HOSTENV => "FEX_HOSTENV"
  | .ADDITIONALARGUMENTS => "FEX_ADDITIONALARGUMENTS"
  | .SINGLESTEP => "FEX_SINGLESTEP"
  | .GDBSERVER => "FEX_GDBSERVER"
  | .DUMPIR => "FEX_DUMPIR"
  | .DUMPGPRS => "FEX_DUMPGPRS"
  | .O0 => "FEX_O0"
  | .SRA => "FEX_SRA"
  | .FORCE32BITALLOCATOR => "FEX_FORCE32BITALLOCATOR"
  | .GLOBALJITNAMING => "FEX_GLOBALJITNAMING"
  | .LIBRARYJITNAMING => "FEX_LIBRARYJITNAMING"
  | .BLOCKJITNAMING => "FEX_BLOCKJITNAMING"
  | .GDBSYMBOLS => "FEX_GDBSYMBOLS"
  | .SILENTLOG => "FEX_SILENTLOG"
  | .OUTPUTLOG => "FEX_OUTPUTLOG"
  | .SMCCHECKS => "FEX_SMCCHECKS"
  | .TSOENABLED => "FEX_TSOENABLED"
  | .TSOAUTOMIGRATION => "FEX_TSOAUTOMIGRATION"
  | .X87REDUCEDPRECISION => "FEX_X87REDUCEDPRECISION"
  | .ABILOCALFLAGS => "FEX_ABILOCALFLAGS"
  | .ABINOPF => "FEX_ABINOPF"
  | .PARANOIDTSO => "FEX_PARANOIDTSO"
  | .STALLPROCESS => "FEX_STALLPROCESS"
  | .X86DEC_SYNCHRONIZERIPONALLBLOCKS => "FEX_X86DEC_SYNCHRONIZERIPONALLBLOCKS"
  | .AOTIRCAPTURE => "FEX_AOTIRCAPTURE"
  | .AOTIRGENERATE => "FEX_AOTIRGENERATE"
  | .AOTIRLOAD => "FEX_AOTIRLOAD"
  | .SERVERSOCKETPATH => "FEX_SERVERSOCKETPATH"
  | .IS_INTERPRETER => "FEX_IS_INTERPRETER"
  | .INTERPRETER_INSTALLED => "FEX_INTERPRETER_INSTALLED"
  | .APP_FILENAME => "FEX_APP_FILENAME"
  | .APP_CONFIG_NAME => "FEX_APP_CONFIG_NAME"
  | .IS64BIT_MODE => "FEX_IS64BIT_MODE"

def coreHandler (h : Host) (value : String) : String :=
  if value = "irint" then "0" else if value = "irjit" then "1" else if h.isX86 ∧ value = "host" then "2" else "1"

def smcCheckHandler (value : String) : String :=
  if value = "none" then "0" else if value = "mtrack" then "1" else if value = "full" then "2"
  else if value = "mman" then "3" else "0"

def cacheObjectCodeHandler (value : String) : String :=
  if value = "none" then "0" else if value = "read" then "1" else if value = "write" then "2" else "0"

/-- The generated part of the loader, for the options with an `ArgumentHandler`. -/
def handleArgument (h : Host) (key value : String) : String :=
  if key = "FEX_CORE" then coreHandler h value
  else if key = "FEX_CACHEOBJECTCODECOMPILATION" then cacheObjectCodeHandler value
  else if key = "FEX_SMCCHECKS" then smcCheckHandler value
  else value

def envEntry (h : Host) (var : String) : Option (String × String) :=
  (splitLast var).map fun e => (e.1, handleArgument h e.1 e.2)

def envMap (h : Host) (envp : List String) : List (String × String) := (envp.filterMap (envEntry h)).foldl insertOrAssign []

/-- A key in an `unordered_map`. -/
def find (map : List (String × String)) (key : String) : Option String := (map.find? (fun e => e.1 = key)).map Prod.snd

/-- `std::getenv`: the first string of the process' environment with the name. -/
def getenv (environ : List String) (name : String) : Option String := find (environ.filterMap splitFirst) name

def getVar (h : Host) (envp environ : List String) (id : String) : Option String :=
  (find (envMap h envp) id).or (getenv environ id)

def setFromEnv (h : Host) (envp environ : List String) (m : LayerOptions) (o : ConfigOption) : LayerOptions :=
  match getVar h envp environ (envKey o) with
  | some value => m.set o value
  | none => m

def envLoad (h : Host) (envp environ : List String) (m : LayerOptions) : LayerOptions :=
  allOptions.foldl (setFromEnv h envp environ) m

/-! ## The statement -/

/-- The values that the layers give to an option, from the lowest layer to the highest. -/
def settings (layers : LayerType → Option LayerOptions) (o : ConfigOption) : List LayerValue :=
  loadOrder.filterMap fun type => if type = .LAYER_TOP then none else (layers type).bind fun options => options o

def highest (layers : LayerType → Option LayerOptions) (o : ConfigOption) : Option String :=
  (settings layers o).getLast?.map LayerValue.front

/-- The number of threads as a config has it: zero and none stand for all cores. -/
def fixedThreads (h : Host) : Option String → String
  | none => toString h.nprocs
  | some v => if conv v = some 0 then toString h.nprocs else v

/-- A core that the host has. -/
def InRange (h : Host) (core : Nat) : Prop := minCoreNumber h ≤ core ∧ core ≤ maxCoreNumber h

instance (h : Host) (core : Nat) : Decidable (InRange h core) := inferInstanceAs (Decidable (_ ∧ _))

def fixedCore (h : Host) (v : String) : String := if (conv v).all (fun core => InRange h core) then v else toString 1

def expandedPath (h : Host) (path : String) : String := if expandPath h path ≠ "" then expandPath h path else path

def namedPath (h : Host) (folder path : String) : String :=
  if expandPath h path ≠ "" then expandPath h path
  else if path ≠ "" ∧ h.pathExists (h.dataDirectory ++ folder ++ path) = true then h.dataDirectory ++ folder ++ path
  else path

def fixedUp : List ConfigOption :=
  [.THREADS, .CORE, .CACHEOBJECTCODECOMPILATION, .ROOTFS, .THUNKHOSTLIBS, .THUNKGUESTLIBS, .THUNKCONFIG, .OUTPUTLOG, .MAXINST,
    .ENV, .HOSTENV]

def definitions (values : List String) : List (String × String) := values.filterMap splitFirst

def valueIn (values : List String) (name : String) : Option String := find (definitions values).reverse name

def highestValue (layers : LayerType → Option LayerOptions) (o : ConfigOption) (name : String) : Option String :=
  ((settings layers o).filterMap fun v => valueIn v.toList name).getLast?

/-- One `NAME=VALUE` for each name. -/
def OneEach (layers : LayerType → Option LayerOptions) (m : LayerOptions) (o : ConfigOption) : Prop :=
  ∀ name, (definitions ((m o).elim [] LayerValue.toList)).filter (fun e => e.1 = name) =
    ((highestValue layers o name).map fun value => (name, value)).toList

/-- The options of the meta layer after a reload. -/
structure Merged (h : Host) (layers : LayerType → Option LayerOptions) (m : LayerOptions) : Prop where
  other : ∀ o, o ∉ fixedUp → m.get o = highest layers o
  threads : m.get .THREADS = some (fixedThreads h (highest layers .THREADS))
  threads_pos : ∀ v, m.get .THREADS = some v → conv v ≠ some 0
  core : m.get .CORE = (highest layers .CORE).map (fixedCore h)
  core_range : ∀ v, m.get .CORE = some v → ∃ n, conv v = some n ∧ InRange h n
  /-- The interpreter caches no code. -/
  cache : m.get .CACHEOBJECTCODECOMPILATION = (highest layers .CACHEOBJECTCODECOMPILATION).filter fun v =>
    conv v = some 0 ∨ (m.get .CORE).elim (some 1) conv ≠ some 0
  rootFS : m.get .ROOTFS = (highest layers .ROOTFS).map (namedPath h "RootFS/")
  thunkHostLibs : m.get .THUNKHOSTLIBS = (highest layers .THUNKHOSTLIBS).map (expandedPath h)
  thunkGuestLibs : m.get .THUNKGUESTLIBS = (highest layers .THUNKGUESTLIBS).map (expandedPath h)
  thunkConfig : m.get .THUNKCONFIG = (highest layers .THUNKCONFIG).map (namedPath h "ThunkConfigs/")
  outputLog : m.get .OUTPUTLOG = (highest layers .OUTPUTLOG).map fun v =>
    if v = "stdout" ∨ v = "stderr" then v else expandedPath h v
  maxInst : if (highest layers .SINGLESTEP).isSome then ∃ v, m.get .MAXINST = some v ∧ stoi v = some 1
    else m.get .MAXINST = highest layers .MAXINST
  env : OneEach layers m .ENV
  hostEnv : OneEach layers m .HOSTENV

/-- The environment layer has the values of the environment's strings. -/
def Assigns (h : Host) (envp environ : List String) : Prop :=
  ∀ o value, envKey o ++ "=" ++ value ∈ envp → (envLoad h envp environ .empty).get o = some value

/-- A `MAXINST` beside `SINGLESTEP` is already 1. -/
def SingleStepOk (layers : LayerType → Option LayerOptions) : Prop :=
  (highest layers .SINGLESTEP).isSome → ∀ v, highest layers .MAXINST = some v → stoi v = some 1

/-- A list that is not merged names no variable twice. It is merged with the layers below, but for an even number that define
nothing. -/
def NamesOnce (layers : LayerType → Option LayerOptions) (o : ConfigOption) : Prop :=
  ∀ lower last, settings layers o = lower ++ [last] → Even lower.length → (∀ v ∈ lower, definitions v.toList = []) →
    ((definitions last.toList).map Prod.fst).Nodup

/-- The environment gives one value to an option. One with a `=` is the one of the process' environment, another is left as
it is. -/
def EnvironmentOk (h : Host) (envp environ : List String) : Prop :=
  ∀ o value, envKey o ++ "=" ++ value ∈ envp →
    (∀ value', envKey o ++ "=" ++ value' ∈ envp → value' = value) ∧
      if '=' ∈ value.toList then getenv environ (envKey o) = some value else handleArgument h (envKey o) value = value

end FexEmu.Config
