import CostConsumer.Foundation.Document
import CostConsumer.Ingest.Process
set_option autoImplicit false

namespace CostConsumer.Ingest
open Foundation Document

section Fields
variable (parseFloat : String → Option Rat)

def peekFields : Schema :=
  [("tenant_id",isText),("organization_id",isText),("instance_id",isText),("cluster_id",isText),
    ("model_id",isText),("user",isText),("model",isText)]

def peekOf (ms : Members) : Peek :=
  ⟨ms.text "tenant_id",ms.text "organization_id",ms.text "instance_id",ms.text "cluster_id",
    ms.text "model_id",ms.text "model"⟩

def meteringDataFields : Schema :=
  [("resource_id",isText),("resource_type",isText),("tenant_id",isText),("project_id",isText),
    ("catalog_item_id",isText),("template_id",isText),("previous_state",isText),
    ("current_state",isText),("transition_time",isText),("duration_seconds",isNumber parseFloat),
    ("billing_dimensions",isAny),("schema_version",isText)]

def meteringDataOf (render : Document → String) (ms : Members) : MeteringData :=
  ⟨ms.text "resource_id",ms.text "resource_type",ms.text "tenant_id",ms.text? "project_id",
    ms.text? "template_id",ms.text "current_state",ms.number? parseFloat "duration_seconds",
    ms.raw render "billing_dimensions"⟩

def computeInstanceFields : Schema :=
  [("duration_seconds",isNumber parseFloat),("cpu_core_seconds",isInteger 64),
    ("memory_gib_seconds",isInteger 64),("tenant_id",isText),("instance_id",isText),
    ("template",isText),("catalog_item",isText),("state",isText),("cores",isInteger 32),
    ("memory_gib",isInteger 32)]

def computeInstanceOf (ms : Members) : ComputeInstanceEventData :=
  ⟨ms.number parseFloat "duration_seconds",ms.integer 64 "cpu_core_seconds",
    ms.integer 64 "memory_gib_seconds",ms.text "tenant_id",ms.text "instance_id",ms.text "state",
    ms.integer 32 "cores",ms.integer 32 "memory_gib"⟩

def clusterFields : Schema :=
  [("duration_seconds",isNumber parseFloat),("worker_node_seconds",isInteger 64),
    ("node_count",isInteger 32),("tenant_id",isText),("cluster_id",isText),("template",isText),
    ("state",isText),("host_type",isText)]

def clusterOf (ms : Members) : ClusterEventData :=
  ⟨ms.number parseFloat "duration_seconds",ms.integer 64 "worker_node_seconds",ms.text "tenant_id",
    ms.text "cluster_id",ms.text "state",ms.text "host_type"⟩

def modelFields : Schema :=
  [("tenant_id",isText),("model_id",isText),("model_name",isText),("template",isText),("state",isText),
    ("tokens_in",isInteger 64),("tokens_out",isInteger 64),("requests",isInteger 64),
    ("duration_seconds",isNumber parseFloat),("request_count",isInteger 64),("user",isText),
    ("group",isText),("subscription",isText),("organization_id",isText),("cost_center",isText),
    ("provider",isText),("model",isText),("prompt_tokens",isInteger 64),
    ("completion_tokens",isInteger 64),("total_tokens",isInteger 64),("cached_input_tokens",isInteger 64),
    ("cache_creation_tokens",isInteger 64),("reasoning_tokens",isInteger 64),("duration_ms",isInteger 64)]

def modelOf (ms : Members) : MaaSEventData :=
  ⟨ms.text "tenant_id",ms.text "model_id",ms.text "model_name",ms.text "template",ms.text "state",
    ms.integer 64 "tokens_in",ms.integer 64 "tokens_out",ms.integer 64 "requests",
    ms.number parseFloat "duration_seconds",ms.integer 64 "request_count",ms.text "user",
    ms.text "group",ms.text "subscription",ms.text "organization_id",ms.text "model",
    ms.integer 64 "prompt_tokens",ms.integer 64 "completion_tokens",ms.integer 64 "duration_ms"⟩

def maasDimensionsOf (ms : Members) : MaasBillingDimensions :=
  ⟨ms.text "organization_id",ms.text "model",ms.integer 64 "prompt_tokens",
    ms.integer 64 "completion_tokens",ms.integer 64 "duration_ms"⟩

def cloudEventFields (parseTime : String → Option Int) : Schema :=
  [("specversion",isText),("type",isText),("source",isText),("id",isText),("time",isTime parseTime),
    ("subject",isText),("datacontenttype",isText),("data",isAny),("osacresourceid",isText),
    ("osacresourcetype",isText),("osactenant",isText),("osacproject",isText),("osactrace",isText)]

def cloudEventOf (parseTime : String → Option Int) (render : Document → String) (ms : Members) :
    CloudEvent :=
  ⟨ms.text "specversion",ms.text "type",ms.text "source",ms.text "id",ms.time parseTime "time",
    ms.text "subject",ms.text "datacontenttype",ms.raw render "data",ms.text "osacresourceid",
    ms.text "osacresourcetype",ms.text "osactenant",ms.text "osacproject",ms.text "osactrace"⟩

end Fields

section Payload
variable (parse : String → Option Document)

def payload (data : String) : Members := ((parse data).bind members?).getD []

/-- Absent dimensions are not decoded at all. -/
def dimensions (data : String) : Members := if data = "" then [] else payload parse data

end Payload

/-- `parse` reads a JSON text, and `render` is the text of a value in it. -/
def jsonDecoder (parse : String → Option Document) (render : Document → String)
    (parseFloat : String → Option Rat) : Decoder :=
  { peek := fun data => (parse data).bind (decode peekFields peekOf)
    meteringData := fun data =>
      (parse data).bind (decode (meteringDataFields parseFloat) (meteringDataOf parseFloat render))
    computeInstance := fun data =>
      (parse data).bind (decode (computeInstanceFields parseFloat) (computeInstanceOf parseFloat))
    cluster := fun data => (parse data).bind (decode (clusterFields parseFloat) (clusterOf parseFloat))
    model := fun data => (parse data).bind (decode (modelFields parseFloat) (modelOf parseFloat))
    vmInstanceType := fun data => (dimensions parse data).text? "instance_type"
    clusterTemplate := fun data => (dimensions parse data).text "cluster_template"
    maasDimensions := fun data => maasDimensionsOf (dimensions parse data) }

variable {δ : Type}

def Env.withJson (env : Env δ) (parse : String → Option Document) (render : Document → String) : Env δ :=
  { env with decoder := jsonDecoder parse render env.parseFloat }

section Peek
variable {parse : String → Option Document} {render : Document → String}
  {parseFloat : String → Option Rat} {data : String} {peek : Peek}

theorem parsed_both {α β : Type} {schema schema' : Schema} {build : Members → α} {build' : Members → β}
    {a : α} {b : β} (ha : (parse data).bind (decode schema build) = some a)
    (hb : (parse data).bind (decode schema' build') = some b) : ∃ ms, a = build ms ∧ b = build' ms := by
  obtain ⟨v,hv,ha⟩ := Option.bind_eq_some_iff.mp ha
  obtain ⟨v',hv',hb⟩ := Option.bind_eq_some_iff.mp hb
  rw [hv] at hv'
  cases hv'
  exact decode_both ha hb

theorem decoded_payload {α : Type} {schema : Schema} {build : Members → α} {a : α}
    (h : (parse data).bind (decode schema build) = some a) : a = build (payload parse data) := by
  obtain ⟨v,hv,hd⟩ := Option.bind_eq_some_iff.mp h
  obtain ⟨ms,hms,-,rfl⟩ := decode_eq_some.mp hd
  rw [payload,hv,Option.bind_some,hms,Option.getD_some]

theorem peek_computeInstance {d : ComputeInstanceEventData}
    (hp : (jsonDecoder parse render parseFloat).peek data = some peek)
    (hd : (jsonDecoder parse render parseFloat).computeInstance data = some d) :
    peek.instanceID = d.instanceID ∧ peek.tenantID = d.tenantID := by
  obtain ⟨ms,rfl,rfl⟩ := parsed_both hp hd
  exact ⟨rfl,rfl⟩

theorem peek_cluster {d : ClusterEventData}
    (hp : (jsonDecoder parse render parseFloat).peek data = some peek)
    (hd : (jsonDecoder parse render parseFloat).cluster data = some d) :
    peek.clusterID = d.clusterID ∧ peek.tenantID = d.tenantID := by
  obtain ⟨ms,rfl,rfl⟩ := parsed_both hp hd
  exact ⟨rfl,rfl⟩

theorem peek_model {d : MaaSEventData}
    (hp : (jsonDecoder parse render parseFloat).peek data = some peek)
    (hd : (jsonDecoder parse render parseFloat).model data = some d) :
    peek.modelID = d.modelID ∧ peek.model = d.model ∧ peek.tenantID = d.tenantID ∧
      peek.organizationID = d.organizationID := by
  obtain ⟨ms,rfl,rfl⟩ := parsed_both hp hd
  exact ⟨rfl,rfl,rfl,rfl⟩

end Peek

end CostConsumer.Ingest
