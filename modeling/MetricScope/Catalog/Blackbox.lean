import MetricScope.Catalog.Blueprint

/-!
# Probes from outside

What the blackbox exporter finds when it calls the services of a cluster.
-/

set_option autoImplicit false

namespace MetricScope.Catalog.Blackbox

open Aggregation

def namedQueries : List NamedQuery := [
  ("blackbox.probe_success",
    "probe_success" ++ braced "instance=~\"$instance\",job=~\"$job\""),
  ("blackbox.uptime",
    "avg_over_time(probe_success" ++ braced "instance=~\"$instance\",job=~\"$job\"" ++
      "[$__range]) * 100"),
  ("blackbox.ssl_expiry",
    "min by (instance) (probe_ssl_earliest_cert_expiry" ++ braced "job=~\"$job\"" ++
      ") - time()"),
  ("blackbox.probe_phases",
    "sum by (phase) (probe_http_duration_seconds" ++
      braced "instance=~\"$instance\",job=~\"$job\"" ++ ")")]

def selected : List LabelFilter := [.regex "job" "$job", .regex "instance" "$instance"]

def perInstance : Option String := some (legendOf "instance")

def status : GroupBlueprint where
  title := "Status"
  panels := [
    .single "Probe Success" "bool_yes_no" (.named "blackbox.probe_success" perInstance),
    { PanelBlueprint.single "Uptime" "percent" (.named "blackbox.uptime" perInstance) with
      description := "Share of successful probes over the dashboard time range." },
    .single "SSL Certificate Expiry" "s" (.named "blackbox.ssl_expiry" perInstance)]

def timings : GroupBlueprint where
  title := "Timings"
  panels := [
    .single "Probe Duration" "s"
      (.built (maxBy "probe_duration_seconds" ["instance"] []) selected
        (legendOf "instance")),
    .single "DNS Lookup" "s"
      (.built (avgBy "probe_dns_lookup_time_seconds" ["instance"] []) selected
        (legendOf "instance")),
    .single "HTTP Phases" "s" (.named "blackbox.probe_phases" (some (legendOf "phase"))),
    .single "HTTP Status Code" "short"
      (.built (minBy "probe_http_status_code" ["instance"] []) selected
        (legendOf "instance"))]

def overview : Blueprint where
  name := "blackbox-exporter"
  displayName := "Blackbox Exporter / Overview"
  vars := [
    ⟨"job", "Job", "probe_success"⟩,
    ⟨"instance", "Instance", "probe_success" ++ braced "job=~\"$job\""⟩]
  groups := [status, timings]

end MetricScope.Catalog.Blackbox
