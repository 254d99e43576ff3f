import ManifestLint.Session
import ManifestLint.Proofs.CommandLine.Checks
import ManifestLint.Proofs.Lines.Offsets
import ManifestLint.Proofs.Lines.Seams
import ManifestLint.Proofs.Paths.Difference
import ManifestLint.Proofs.Reports.Documents
import ManifestLint.Proofs.Reports.Colors
import ManifestLint.Proofs.Rules.Concatenation
import ManifestLint.Proofs.Rules.Mentions
import ManifestLint.Proofs.Rules.Spelling
import ManifestLint.Proofs.Runs.AllOrNothing
import ManifestLint.Proofs.Runs.Labels
import ManifestLint.Proofs.Runs.Outcomes
import ManifestLint.Proofs.Runs.Relocation
import ManifestLint.Proofs.Runs.Verbosity
import ManifestLint.Proofs.Sessions.Observation
import ManifestLint.Proofs.Settings.Confinement
import ManifestLint.Proofs.Settings.Decoding
import ManifestLint.Proofs.Settings.Discovery
import ManifestLint.Proofs.Settings.Entries
