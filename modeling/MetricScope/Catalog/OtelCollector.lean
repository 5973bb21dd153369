import MetricScope.Catalog.Blueprint

/-!
# Telemetry collectors

What the OpenTelemetry collectors of a cluster receive, send and use.
-/

set_option autoImplicit false

namespace MetricScope.Catalog.OtelCollector

open Aggregation

def namedQueries : List NamedQuery := [
  ("otel_collector.memory_rss",
    "sum by (service_instance_id) (otelcol_process_memory_rss" ++
      braced "job=~\"$job\"" ++ ")"),
  ("otel_collector.cpu_seconds",
    "sum by (service_instance_id) (rate(otelcol_process_cpu_seconds" ++
      braced "job=~\"$job\"" ++ "[$__rate_interval]))"),
  ("otel_collector.uptime",
    "max by (service_instance_id) (otelcol_process_uptime" ++
      braced "job=~\"$job\"" ++ ")")]

def selectedJob : List LabelFilter := [.regex "job" "$job"]

def receiverRate (title metric : String) : PanelBlueprint :=
  .single title "reqps"
    (.built (sumByRate metric ["receiver"] []) selectedJob (legendOf "receiver"))

def receivers : GroupBlueprint where
  title := "Receivers"
  panels := [
    receiverRate "Accepted Spans" "otelcol_receiver_accepted_spans",
    receiverRate "Refused Spans" "otelcol_receiver_refused_spans",
    receiverRate "Accepted Metric Points" "otelcol_receiver_accepted_metric_points"]

def failedPercentage : PromQL.Expr :=
  errorCasePercentage ⟨"otelcol_exporter_send_failed_spans", ["exporter"], []⟩
    ⟨"otelcol_exporter_sent_spans", ["exporter"], []⟩

def exporters : GroupBlueprint where
  title := "Exporters"
  panels := [
    .single "Sent Spans" "short"
      (.built (sumByIncrease "otelcol_exporter_sent_spans" ["exporter"] []) selectedJob
        (legendOf "exporter")),
    .single "Failed Span Percentage" "percent"
      (.built failedPercentage selectedJob (legendOf "exporter")),
    ⟨"Queue Size", "short", "", [
      .built (maxBy "otelcol_exporter_queue_size" ["exporter"] []) selectedJob
        (legendOf "exporter" ++ " size"),
      .built (maxBy "otelcol_exporter_queue_capacity" ["exporter"] []) selectedJob
        (legendOf "exporter" ++ " capacity")]⟩]

def perCollector : Option String := some (legendOf "service_instance_id")

def process : GroupBlueprint where
  title := "Process"
  panels := [
    .single "Memory RSS" "bytes" (.named "otel_collector.memory_rss" perCollector),
    .single "CPU" "cores" (.named "otel_collector.cpu_seconds" perCollector),
    .single "Uptime" "s" (.named "otel_collector.uptime" perCollector)]

def overview : Blueprint where
  name := "opentelemetry-collector"
  displayName := "OpenTelemetry Collector / Overview"
  vars := [⟨"job", "Job", "otelcol_process_uptime"⟩]
  groups := [receivers, exporters, process]

end MetricScope.Catalog.OtelCollector
