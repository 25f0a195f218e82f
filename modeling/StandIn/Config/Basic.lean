import StandIn.Config.Formatter
import StandIn.Text.Blank
import StandIn.Traversal.Dispatch
import StandIn.Value.Factory

/-!
Configurations of a run.
-/

namespace StandIn

open Config (Fault Formatter)

structure Config where
  -- Of the schema; there is only one so far.
  version      : Nat := 1
  -- The output directory for proxies and rewired programs.
  decorateDir  : String := "build"
  -- The output directory for builders and mocks.
  generateDir  : String := "gen"
  -- Segments of import paths that mark a package as one to decorate.
  layerNames   : List String := ["handler", "controller", "gateway", "repository"]
  -- Names of directories that are passed over, besides the output directories.
  excludedDirs : List String := Traversal.usuallyExcluded
  formatter    : Formatter := .goimports
  -- How many elements made-up collections have.
  cardinality  : Nat := 2
  factory      : Value.Factory := .standard
  -- Where texts go that were refused, from the module's directory.
  debugLog     : String := "gosynth-debug.log"
  -- Tests of programs are not rewired.
  skipTests    : Bool := true
  deriving DecidableEq, Repr

namespace Config

def supportedVersion : Nat := 1

def greatestCardinality : Nat := 16

-- What speaks against a name for an output directory: it has to be a single name.
def dirFault? (field value : String) : Option Fault :=
  if value = "" then some (.empty field)
  else if value.toList.contains '/' || value.toList.contains '\\' ||
      value = "." || value = ".." then
    some (.badDirName field value)
  else none

-- A list has to hold something, and nothing in it may be blank.
def listFault? (field : String) (values : List String) : Option Fault :=
  if values.isEmpty || values.any (fun v => (Text.trim v.toList).isEmpty) then some (.empty field)
  else none

def emptyFault? (field value : String) : Option Fault :=
  if value = "" then some (.empty field) else none

variable (c : Config)

def versionFault? : Option Fault :=
  if c.version = supportedVersion then none
  else some (.unsupportedVersion c.version [supportedVersion])

def cardinalityFault? : Option Fault :=
  if 1 ≤ c.cardinality ∧ c.cardinality ≤ greatestCardinality then none
  else some (.range "example_cardinality" c.cardinality 1 greatestCardinality
    "Collections need at least one example element")

-- What is wrong with the configuration; of several faults the first in this order.
def fault? : Option Fault :=
  c.versionFault?
    <|> dirFault? "decorate_dir" c.decorateDir
    <|> dirFault? "generate_dir" c.generateDir
    <|> listFault? "layer_names" c.layerNames
    <|> c.cardinalityFault?
    <|> emptyFault? "example_factory.import_path" c.factory.importPath
    <|> emptyFault? "example_factory.package" c.factory.package
    <|> emptyFault? "debug_log" c.debugLog

def validate : Except Fault Unit :=
  match c.fault? with
  | none   => .ok ()
  | some f => .error f

-- All names of directories that are passed over.
def walkExclusions : List String :=
  let add (names : List String) (dir : String) := if dir ∈ names then names else names ++ [dir]
  add (add c.excludedDirs c.decorateDir) c.generateDir

def traversalOptions : Traversal.Options where
  skipTests := c.skipTests
  excluded  := c.walkExclusions

end Config

end StandIn
