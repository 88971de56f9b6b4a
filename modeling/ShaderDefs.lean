import ShaderDefs.Main
import ShaderDefs.Session
import ShaderDefs.Proofs.Canonical.DepthLimit
import ShaderDefs.Proofs.Canonical.NormalForm
import ShaderDefs.Proofs.Canonical.Refusal
import ShaderDefs.Proofs.Canonical.RoundTrip
import ShaderDefs.Proofs.Canonical.Uniqueness
import ShaderDefs.Proofs.CommandLine.Outcome
import ShaderDefs.Proofs.Definition.Heading
import ShaderDefs.Proofs.Definition.Refusal
import ShaderDefs.Proofs.Infix.Application
import ShaderDefs.Proofs.Infix.Parentheses
import ShaderDefs.Proofs.Infix.Text
import ShaderDefs.Proofs.Lint.Configuration
import ShaderDefs.Proofs.Lint.Extension
import ShaderDefs.Proofs.Lint.Listing
import ShaderDefs.Proofs.Lint.Reordering
import ShaderDefs.Proofs.Report.Agreement
import ShaderDefs.Proofs.Report.Callees
import ShaderDefs.Proofs.Report.Carets
import ShaderDefs.Proofs.Report.Diagnostics
import ShaderDefs.Proofs.Report.Layout
import ShaderDefs.Proofs.Report.Rebuilding
import ShaderDefs.Proofs.Report.Texts
