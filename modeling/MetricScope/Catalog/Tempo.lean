import MetricScope.Catalog.Blueprint

/-!
# Traces

Requests to the trace store of a cluster, what it takes in and how its backend fares.
-/

set_option autoImplicit false

namespace MetricScope.Catalog.Tempo

open Aggregation

def latencyQuery (quantile : String) : String :=
  String.join ["histogram_quantile(", quantile,
    ", sum by (le, route) (rate(tempo_request_duration_seconds_bucket",
    braced "job=~\"$job\"", "[$__rate_interval])))"]

def namedQueries : List NamedQuery := [
  ("tempo.p99_latency", latencyQuery "0.99"),
  ("tempo.p50_latency", latencyQuery "0.5"),
  ("tempo.compaction_errors",
    "sum(increase(tempodb_compaction_errors_total" ++ braced "job=~\"$job\"" ++
      "[$__range]))"),
  ("tempo.live_traces",
    "sum by (tenant) (tempo_ingester_live_traces" ++ braced "job=~\"$job\"" ++ ")")]

def selectedJob : List LabelFilter := [.regex "job" "$job"]

def serverErrors : List LabelFilter := [.regex "status_code" "5.."]

def errorPercentage : PromQL.Expr :=
  errorCasePercentage ⟨"tempo_request_duration_seconds_count", ["route"], serverErrors⟩
    ⟨"tempo_request_duration_seconds_count", ["route"], []⟩

def requests : GroupBlueprint where
  title := "Requests"
  panels := [
    .single "Request Rate" "reqps"
      (.built (sumByRate "tempo_request_duration_seconds_count" ["route"] []) selectedJob
        (legendOf "route")),
    { PanelBlueprint.single "Error Percentage" "percent"
        (.built errorPercentage selectedJob (legendOf "route")) with
      description := "Share of requests answered with a 5xx status." },
    ⟨"Latency", "s", "", [
      .named "tempo.p99_latency" (some ("p99 " ++ legendOf "route")),
      .named "tempo.p50_latency" (some ("p50 " ++ legendOf "route"))]⟩]

def ingest : GroupBlueprint where
  title := "Ingest"
  panels := [
    .single "Spans Received" "reqps"
      (.built (sumByRate "tempo_distributor_spans_received_total" ["tenant"] []) selectedJob
        (legendOf "tenant")),
    .single "Traces Created" "short"
      (.built (sumByIncrease "tempo_ingester_traces_created_total" ["tenant"] [])
        selectedJob (legendOf "tenant")),
    .single "Live Traces" "short" (.named "tempo.live_traces" (some (legendOf "tenant")))]

def backend : GroupBlueprint where
  title := "Backend"
  panels := [
    .single "Compaction Errors" "short" (.named "tempo.compaction_errors" none)]

def overview : Blueprint where
  name := "tempo-overview"
  displayName := "Tempo / Overview"
  vars := [⟨"job", "Job", "tempo_build_info"⟩]
  groups := [requests, ingest, backend]

end MetricScope.Catalog.Tempo
