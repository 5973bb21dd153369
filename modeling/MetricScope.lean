import MetricScope.Main
import MetricScope.Proofs.Catalog.ReadingBack
import MetricScope.Proofs.Merging.Selection
import MetricScope.Proofs.RoundTrip
import MetricScope.Proofs.TemplateVariable.Decoding
import MetricScope.Proofs.Catalog.Rendering
import MetricScope.Proofs.Catalog.Scoping
import MetricScope.Proofs.Composition
import MetricScope.Proofs.Merging.Validity
import MetricScope.Proofs.OwnVariables
import MetricScope.Proofs.Survival
import MetricScope.Proofs.Dashboard
import MetricScope.Proofs.Registry.History
import MetricScope.Proofs.Rendering
import MetricScope.Proofs.TemplateVariable.Substitution
import MetricScope.Proofs.TemplateVariable.Clearing
import MetricScope.Proofs.Catalog.Overrides
import MetricScope.Proofs.LaterFilters
import MetricScope.Proofs.Merging.LastFilters
import MetricScope.Proofs.LiteralValues
import MetricScope.Proofs.Catalog.Configuring
