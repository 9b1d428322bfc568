import ModelLoading.Loading.Session
import ModelLoading.Loading.SettingsFile
import ModelLoading.Main
import ModelLoading.Resource.Directory
import ModelLoading.Decode.Field
import ModelLoading.Decode.ObjectTable
import ModelLoading.Decode.Program
import ModelLoading.Text.Alphabetic
import ModelLoading.Text.Encoding
import ModelLoading.Text.Numeric
import ModelLoading.Proofs.Loading.OneInFlight
import ModelLoading.Proofs.Loading.Outcome
import ModelLoading.Proofs.Loading.Lifecycle
import ModelLoading.Proofs.Loading.AtMostOnce
import ModelLoading.Proofs.Loading.Release
import ModelLoading.Proofs.Loading.Finality
import ModelLoading.Proofs.Loading.Sequence
import ModelLoading.Proofs.Loading.RegistrationOrder
import ModelLoading.Proofs.Loading.SuffixMatching
import ModelLoading.Proofs.Decode.Reads
import ModelLoading.Proofs.Decode.Machine
import ModelLoading.Proofs.Decode.RoundTrip
import ModelLoading.Proofs.Decode.Texts
import ModelLoading.Proofs.Decode.Attempts
import ModelLoading.Proofs.Decode.Truncation
import ModelLoading.Proofs.Pattern.Search
import ModelLoading.Proofs.Pattern.Replacing
import ModelLoading.Proofs.Pattern.Escaping
import ModelLoading.Proofs.Pattern.Room
import ModelLoading.Proofs.Conversion.Building
import ModelLoading.Proofs.Conversion.EnumArrays
import ModelLoading.Proofs.Conversion.Balance
import ModelLoading.Proofs.Conversion.Factories
import ModelLoading.Proofs.Conversion.Headers
import ModelLoading.Proofs.Conversion.Natives
import ModelLoading.Proofs.Conversion.Files
import ModelLoading.Proofs.Loading.Acquisition
import ModelLoading.Proofs.Loading.Reachable
import ModelLoading.Proofs.CommandLine.Effects
import ModelLoading.Proofs.Conversion.Casts
import ModelLoading.Proofs.Conversion.Names
import ModelLoading.Proofs.Loading.Quiescence
import ModelLoading.Proofs.Decode.Objects
import ModelLoading.Proofs.Resource.Memory
import ModelLoading.Proofs.Resource.Directory
import ModelLoading.Proofs.Conversion.ArrayCasts
import ModelLoading.Proofs.Text.Reverting
import ModelLoading.Proofs.Conversion.Corrections
import ModelLoading.Proofs.Conversion.Refusals
import ModelLoading.Proofs.Edit.Staging
import ModelLoading.Proofs.CommandLine.Grouping
import ModelLoading.Proofs.Conversion.RuleNames
import ModelLoading.Proofs.Conversion.Reporting
import ModelLoading.Proofs.Edit.Literals
import ModelLoading.Proofs.Conversion.Quoting
