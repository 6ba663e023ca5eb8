import Workflow.Branch.Concurrency
import Workflow.Codec

/-!
# Configurations

A configuration sets what may be set about badges and about the classification of branches.  Every
part of it may be left out.
-/

namespace Workflow

open Json

/-- All that may be set. -/
structure Config where
  codec : Codec.Settings
  branch : Branch.Settings
  deriving DecidableEq

def Config.standard : Config :=
  { codec := .standard, branch := .standard }

def Codec.ErrorPolicy.names : List (String × ErrorPolicy) :=
  [("last_wins", .lastWins), ("first_wins", .firstWins)]

def Branch.PathMatching.names : List (String × PathMatching) :=
  [("literal", .literal), ("segmented", .segmented)]

def Codec.Settings.reader : Reader Settings :=
  .record .standard [
    .defaulted "error_policy" (.choice ErrorPolicy.names) fun errorPolicy settings =>
      { settings with errorPolicy },
    .defaulted "reference_class" .string fun referenceClass settings =>
      { settings with referenceClass },
    .defaulted "error_class" .string fun errorClass settings => { settings with errorClass }]

def Branch.Settings.reader : Reader Settings :=
  .record .standard [
    .defaulted "matching" (.choice PathMatching.names) fun matching settings =>
      { settings with matching }]

def Config.reader : Reader Config :=
  .record .standard [
    .defaulted "codec" Codec.Settings.reader fun codec config => { config with codec },
    .defaulted "branch" Branch.Settings.reader fun branch config => { config with branch }]

def Config.load (text : String) : Except ReadError Config :=
  read Config.reader text

end Workflow
