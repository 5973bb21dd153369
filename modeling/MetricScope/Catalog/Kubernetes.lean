import MetricScope.Catalog.Blueprint

/-!
# Kubernetes

Resource usage of a cluster, broken down by namespace and pod.
-/

set_option autoImplicit false

namespace MetricScope.Catalog.Kubernetes

open Aggregation

def namedQueries : List NamedQuery := [
  ("kubernetes.cpu_utilisation",
    "1 - avg(rate(node_cpu_seconds_total" ++
      braced "job=\"node-exporter\",mode=\"idle\"" ++ "[$__rate_interval]))"),
  ("kubernetes.cpu_requests_commitment",
    "sum(kube_pod_container_resource_requests" ++
      braced "job=\"kube-state-metrics\",resource=\"cpu\"" ++
      ") / sum(kube_node_status_allocatable" ++
      braced "job=\"kube-state-metrics\",resource=\"cpu\"" ++ ")"),
  ("kubernetes.memory_utilisation",
    "1 - sum(node_memory_MemAvailable_bytes" ++ braced "job=\"node-exporter\"" ++
      ") / sum(node_memory_MemTotal_bytes" ++ braced "job=\"node-exporter\"" ++ ")"),
  ("kubernetes.memory_requests_commitment",
    "sum(kube_pod_container_resource_requests" ++
      braced "job=\"kube-state-metrics\",resource=\"memory\"" ++
      ") / sum(kube_node_status_allocatable" ++
      braced "job=\"kube-state-metrics\",resource=\"memory\"" ++ ")"),
  ("kubernetes.cpu_usage",
    "sum by (pod) (rate(container_cpu_usage_seconds_total" ++
      braced "container!=\"\",image!=\"\"" ++ "[$__rate_interval]))"),
  ("kubernetes.memory_working_set",
    "sum by (pod) (container_memory_working_set_bytes" ++
      braced "container!=\"\",image!=\"\"" ++ ")")]

def inNamespace : List LabelFilter := [.equal "namespace" "$namespace"]

def fromStateMetrics : List LabelFilter := [.equal "job" "kube-state-metrics"]

def notPause : List LabelFilter := [⟨"container", .notEqual, "POD"⟩]

def podsPerNode : PromQL.Expr :=
  onGroupLeft
    (binary .mul (sumBy "kube_pod_info" ["node"] fromStateMetrics)
      (maxBy "kube_node_info" ["node", "kernel_version"] fromStateMetrics))
    ["node"] ["kernel_version"]

def headline (title name : String) : PanelBlueprint :=
  .single title "percentunit" (.named name none)

def headlines : GroupBlueprint where
  title := "Headlines"
  panels := [
    headline "CPU Utilisation" "kubernetes.cpu_utilisation",
    headline "CPU Requests Commitment" "kubernetes.cpu_requests_commitment",
    headline "Memory Utilisation" "kubernetes.memory_utilisation",
    headline "Memory Requests Commitment" "kubernetes.memory_requests_commitment"]

def workloads : GroupBlueprint where
  title := "Workloads"
  panels := [
    .single "Pods per Namespace" "short"
      (.built (sumBy "kube_pod_info" ["namespace"] fromStateMetrics) []
        (legendOf "namespace")),
    { PanelBlueprint.single "Pods per Node" "short"
        (.built podsPerNode []
          (legendOf "node" ++ " (" ++ legendOf "kernel_version" ++ ")")) with
      description := "Running pods per node, annotated with the node kernel version." },
    .single "Container Restarts" "short"
      (.built
        (sumByIncrease "kube_pod_container_status_restarts_total" ["pod"] fromStateMetrics)
        inNamespace (legendOf "pod"))]

def namespaceUsage : GroupBlueprint where
  title := "Namespace: $namespace"
  panels := [
    .single "CPU Usage" "cores"
      ⟨.named "kubernetes.cpu_usage" inNamespace, some (legendOf "pod")⟩,
    .single "Memory Working Set" "bytes"
      ⟨.named "kubernetes.memory_working_set" inNamespace, some (legendOf "pod")⟩,
    .single "Network Receive" "Bps"
      (.built (sumByRate "container_network_receive_bytes_total" ["pod"] notPause)
        inNamespace (legendOf "pod")),
    .single "Network Transmit" "Bps"
      (.built (sumByRate "container_network_transmit_bytes_total" ["pod"] notPause)
        inNamespace (legendOf "pod"))]

def clusterResources : Blueprint where
  name := "kubernetes-cluster-resources"
  displayName := "Kubernetes / Compute Resources / Cluster"
  vars := [⟨"namespace", "Namespace", "kube_namespace_status_phase"⟩]
  groups := [headlines, workloads, namespaceUsage]

end MetricScope.Catalog.Kubernetes
