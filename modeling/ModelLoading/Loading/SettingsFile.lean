import ModelLoading.Files.Script
import ModelLoading.Loading.Error
import ModelLoading.Loading.Settings
import ModelLoading.Toml.Document
import ModelLoading.Toml.Fields

/-!
# Settings of loading in files

The settings of loading are written in TOML. Every setting has a default.
-/

namespace ModelLoading.Loading.Settings

/-- The names of the ways to select a resource. -/
def matchings : List (String × Resource.Matching) := [("suffix", .suffix), ("exact", .exact)]

/-- The names of the policies for loaders without bytes. -/
def policies : List (String × MissingPolicy) := [("fail", .fail), ("skip", .skip)]

/-- Reads settings from their fields. -/
def ofFields (f : Toml.Fields) : Except Toml.Error Settings := do
  let base : Settings := {}
  return {
    matching := ← f.withDefault "resource_match" (·.readChoice matchings) base.matching
    missing := ← f.withDefault "missing_resource" (·.readChoice policies) base.missing
    recheck := ← f.withDefault "recheck_after_all_loaded" (·.readBoolean) base.recheck
    threadName := ← f.withDefault "thread_name" (·.readText) base.threadName }

/-- Reads settings from a text. -/
def parse (text : String) : Except Toml.Error Settings := do
  ofFields (.ofEntries (← Toml.parse text))

/-- Reads settings from a file. -/
def load (path : String) : Files.Script (Except Error Settings) :=
  .readText path fun
    | .error cause => .done (.error (.io cause))
    | .ok text =>
      match parse text with
      | .error cause => .done (.error (.settings cause))
      | .ok settings =>
        .log ⟨.debug, .loading, s!"Loaded byte loader config from {Text.quoted path}"⟩
          (.done (.ok settings))

end ModelLoading.Loading.Settings
