import HearthAI.Stages.ControlPlane
import HearthAI.Stages.RustGate

/-! # Where the two gates of an envelope agree

They accept the same values but for two kinds: what only the Rust gate finds a fault in, and
what only the control plane does.
-/
namespace HearthAI.Stages
open Text Python Contracts

/-- The faults that the Rust gate finds where the control plane finds none. -/
inductive RustGateFault (url : Str → Option Url) (time : Str → Prop) (value : Value) : Prop
  | padded {found : Option Value} {raw : Str} (hmem : found ∈ fixedTexts value)
      (hraw : found = some (.str raw)) (h : strip raw ≠ raw)
  | sourceId {raw : Str} (hraw : dataField value "source_id" = some (.str raw))
      (h : ¬ShortSourceId raw)
  | finalUrl {raw : Str} (hraw : dataField value "final_url" = some (.str raw))
      (h : ¬BoundedUrl url raw)
  | contentType {raw : Str} (hraw : dataField value "content_type" = some (.str raw))
      (h : ¬MediaText raw)
  | retrievedAt {raw : Str} (hraw : dataField value "retrieved_at" = some (.str raw))
      (h : ¬(Utf8Encodable raw ∧ time raw))
  | content {raw : Str} (hraw : dataField value "content" = some (.str raw))
      (h : ¬(Utf8Encodable raw ∧ raw.length ≤ Contracts.maxContentChars))

/-- The faults that the control plane finds where the Rust gate finds none. -/
inductive ControlPlaneFault (url : Str → Option Url) (time : Str → Prop) (value : Value) : Prop
  | array {found : Option Value} {items : List Value} (hmem : found ∈ structs value)
      (h : found = some (.list items))
  | leftOut {name : String} (hmem : name ∈ Envelope.fieldNames)
      (h : envelopeField value name = none)
  | policyLeftOut (h : inspectionField value "policy_id" = none)
  | variant {found : Option Value} {items : Dict Str Value} (hmem : found ∈ variants value)
      (h : found = some (.dict items))
  | finalUrl {raw : Str} (hraw : dataField value "final_url" = some (.str raw))
      (h : ¬WebUrl url (strip raw))
  | contentType {raw : Str} (hraw : dataField value "content_type" = some (.str raw))
      (h : strip raw = [])
  | retrievedAt {raw : Str} (hraw : dataField value "retrieved_at" = some (.str raw))
      (h : ¬(strip raw ≠ [] ∧ (strip raw).length ≤ 40 ∧ time (strip raw)))
  | content {raw : Str} (hraw : dataField value "content" = some (.str raw))
      (h : Jobs.maxContentChars < (strip raw).length)

/-- The value has what the control plane asks, and a fault for the Rust gate. -/
structure OnlyControlPlane (isDigit : CodePoint → Bool) (url : Str → Option Url)
    (time : Str → Prop) (value : Value) : Prop where
  both : BothAsk isDigit value
  asks : ControlPlaneAsks url time value
  fault : RustGateFault url time value

/-- The value has what the Rust gate asks, and a fault for the control plane. -/
structure OnlyRustGate (isDigit : CodePoint → Bool) (url : Str → Option Url)
    (time : Str → Prop) (value : Value) : Prop where
  both : BothAsk isDigit value
  asks : RustGateAsks url time value
  fault : ControlPlaneFault url time value

section
variable {url : Str → Option Url} {time : Str → Prop} {value : Value}

theorem rustGateFault_iff (hasks : ControlPlaneAsks url time value) :
    RustGateFault url time value ↔ ¬RustGateAsks url time value := by
  constructor
  · intro hfault h
    cases hfault with
    | padded hmem hraw hne => exact hne (h.unpadded _ hmem _ hraw)
    | sourceId hraw hne => exact hne (h.sourceId _ hraw)
    | finalUrl hraw hne => exact hne (h.finalUrl _ hraw)
    | contentType hraw hne => exact hne (h.contentType _ hraw)
    | retrievedAt hraw hne => exact hne (h.retrievedAt _ hraw)
    | content hraw hne => exact hne (h.content _ hraw)
  · intro hnot
    by_contra hfault
    -- no array is left of the structs that the control plane takes
    refine hnot ⟨⟨?_,?_⟩,?_,?_,?_,?_,?_,?_⟩
    · rintro items rfl
      exact absurd rfl (hasks.objects _ (by simp [structs]) items)
    · intro items hitems
      exact absurd hitems (hasks.objects _ (by simp [structs]) items)
    · exact fun found hmem raw hraw => by_contra fun h => hfault (.padded hmem hraw h)
    · exact fun raw hraw => by_contra fun h => hfault (.sourceId hraw h)
    · exact fun raw hraw => by_contra fun h => hfault (.finalUrl hraw h)
    · exact fun raw hraw => by_contra fun h => hfault (.contentType hraw h)
    · exact fun raw hraw => by_contra fun h => hfault (.retrievedAt hraw h)
    · exact fun raw hraw => by_contra fun h => hfault (.content hraw h)

theorem controlPlaneFault_iff :
    ControlPlaneFault url time value ↔ ¬ControlPlaneAsks url time value := by
  constructor
  · intro hfault h
    cases hfault with
    | array hmem hfound => exact h.objects _ hmem _ hfound
    | leftOut hmem hnone => exact h.complete.1 _ hmem hnone
    | policyLeftOut hnone => exact h.complete.2 hnone
    | variant hmem hfound => exact h.names _ hmem _ hfound
    | finalUrl hraw hne => exact hne (h.finalUrl _ hraw)
    | contentType hraw hblank => exact h.contentType _ hraw hblank
    | retrievedAt hraw hne => exact hne (h.retrievedAt _ hraw)
    | content hraw hlong => exact hlong.not_ge (h.content _ hraw)
  · intro hnot
    by_contra hfault
    refine hnot ⟨?_,⟨?_,?_⟩,?_,?_,?_,?_,?_⟩
    · exact fun found hmem items h => hfault (.array hmem h)
    · exact fun name hmem h => hfault (.leftOut hmem h)
    · exact fun h => hfault (.policyLeftOut h)
    · exact fun found hmem items h => hfault (.variant hmem h)
    · exact fun raw hraw => by_contra fun h => hfault (.finalUrl hraw h)
    · exact fun raw hraw h => hfault (.contentType hraw h)
    · exact fun raw hraw => by_contra fun h => hfault (.retrievedAt hraw h)
    · exact fun raw hraw => not_lt.mp fun h => hfault (.content hraw h)

end
/-- The two gates give the same verdict on a JSON value, unless it has a fault for one of them and
all of what the other one asks. -/
theorem gates_agree_iff {python : Interpreter} {level : ℕ} {readFloat : Str → Option Double}
    {url : Str → Option Url} {time : Str → Prop} {urls : UrlCrate} {times : TimeCrate}
    {parsers : Jobs.Parsers} {serde : SerdeJson} {dumps : Value → String} {value : Value}
    (hdigits : ∀ c : CodePoint, 48 ≤ c.val → c.val ≤ 57 → parsers.isDigit c = true)
    (hshared : SharedParsers parsers urls times url time) (hloaded : Loaded python level value)
    (hreads : Reads serde dumps readFloat value) :
    SameVerdict serde dumps parsers urls times value ↔
      ¬OnlyControlPlane parsers.isDigit url time value ∧
        ¬OnlyRustGate parsers.isDigit url time value := by
  rw [SameVerdict,controlPlane_iff hshared,rustGate_iff hdigits hshared hloaded hreads]
  constructor
  · intro hsame
    constructor
    · rintro ⟨hboth,hasks,hfault⟩
      exact (rustGateFault_iff hasks).mp hfault (hsame.mp ⟨hboth,hasks⟩).2
    · rintro ⟨hboth,hasks,hfault⟩
      exact controlPlaneFault_iff.mp hfault (hsame.mpr ⟨hboth,hasks⟩).2
  · rintro ⟨hcontrolPlane,hrustGate⟩
    constructor
    · rintro ⟨hboth,hasks⟩
      by_contra hnot
      exact hcontrolPlane ⟨hboth,hasks,(rustGateFault_iff hasks).mpr fun h => hnot ⟨hboth,h⟩⟩
    · rintro ⟨hboth,hasks⟩
      by_contra hnot
      exact hrustGate ⟨hboth,hasks,controlPlaneFault_iff.mpr fun h => hnot ⟨hboth,h⟩⟩

/-- The page with another name of the tool. -/
def pageOf (tool : String) : WebFetchEnvelope := { pageEnvelope "text/html" with tool := tool }

/-- `json.dumps` of the page. -/
def pageText (tool : String) : String :=
  "\x7b\"envelope_version\": 1, \"tool\": \"" ++ tool ++ "\", \"tool_version\": 1, " ++
  "\"status\": \"ok\", \"trust\": \"external_untrusted\", \"inspection\": \x7b\"status\": " ++
  "\"no_match\", \"policy_id\": \"core-1\"\x7d, \"data\": \x7b\"source_id\": \"source-1\", " ++
  "\"final_url\": \"http://example.com/\", \"http_status\": 200, " ++
  "\"content_type\": \"text/html\", \"retrieved_at\": \"2026-01-05T09:00:00Z\", " ++
  "\"format\": \"markdown\", \"conversion_method\": \"native\", " ++
  "\"content\": \"hello\"\x7d, \"error\": null\x7d"

def pageSerde (tool : String) : SerdeJson where
  parse text := if text = pageText tool then some ((pageOf tool).toValue webFetchCodec) else none
  print _ := pageText tool
  errorText _ := "expected value at line 1 column 1"

/-- A clock library that knows the time in both of its spellings. -/
def nineOffsets : TimeCrate where
  parseRfc3339 text :=
    if withOffset (lit text) = lit "2026-01-05T09:00:00+00:00" then some ⟨1767603600000000000,0⟩
    else none
  formatRfc3339 _ := some "2026-01-05T09:00:00Z"

def siteUrl (s : Str) : Option Url :=
  if solid s = solid (lit shortText) then some (sitePage "/") else none

def isNine (s : Str) : Prop := withOffset s = lit "2026-01-05T09:00:00+00:00"

theorem nine_shared :
    SharedParsers nineParsers (oneUrl shortText (sitePage "/")) nineOffsets siteUrl isNine where
  split s := by
    unfold SameUrl nineParsers oneSplit siteUrl
    dsimp only
    split_ifs
    · exact ⟨_,rfl,rfl,rfl,rfl,rfl⟩
    · exact nofun
  parse text := by
    unfold oneUrl siteUrl
    dsimp only
    split_ifs <;> rfl
  fromisoformat s := by
    unfold nineParsers isNine
    dsimp only
    split_ifs with h <;> simp [h]
  parseRfc3339 text := by
    unfold nineOffsets isNine
    dsimp only
    split_ifs with h <;> simp [h]

theorem pageSerde_parse (tool : String) :
    (pageSerde tool).parse (pageText tool) = some ((pageOf tool).toValue webFetchCodec) := by
  unfold pageSerde
  dsimp only
  rw [if_pos rfl]

theorem one_inRange : (-2 ^ 63 : Int) ≤ 1 ∧ (1 : Int) < 2 ^ 64 := by decide

theorem pageOf_document (tool : String) : (mirror (pageOf tool)).toDict.document (fun _ => none)
    maxDepth = some ((pageOf tool).toValue webFetchCodec) := by
  have hinspection : (Jobs.Inspection.toDict ⟨.noMatch,some (lit "core-1")⟩).document
      (fun _ => none) 126 = some (Contracts.Inspection.toValue ⟨.noMatch,some "core-1"⟩) :=
    document_eq_obj.mpr ⟨_,rfl,.cons ⟨rfl,document_lit⟩ (.cons ⟨rfl,document_lit⟩ .nil)⟩
  have hdata : (mirrorData (pageData "text/html")).toDict.document (fun _ => none) 126 =
      some (pageData "text/html").toValue :=
    document_eq_obj.mpr ⟨_,rfl,.cons ⟨rfl,document_lit⟩ <| .cons ⟨rfl,document_lit⟩ <|
      .cons ⟨rfl,document_eq_int.mpr ⟨rfl,by decide,by decide⟩⟩ <| .cons ⟨rfl,document_lit⟩ <|
      .cons ⟨rfl,document_lit⟩ <| .cons ⟨rfl,document_lit⟩ <| .cons ⟨rfl,document_lit⟩ <|
      .cons ⟨rfl,document_lit⟩ .nil⟩
  exact document_eq_obj.mpr ⟨_,rfl,.cons ⟨rfl,document_eq_int.mpr ⟨rfl,one_inRange⟩⟩ <|
    .cons ⟨rfl,document_lit⟩ <| .cons ⟨rfl,document_eq_int.mpr ⟨rfl,one_inRange⟩⟩ <|
    .cons ⟨rfl,document_lit⟩ <| .cons ⟨rfl,document_lit⟩ <| .cons ⟨rfl,hinspection⟩ <|
    .cons ⟨rfl,hdata⟩ <| .cons ⟨rfl,document_eq_null.mpr rfl⟩ .nil⟩

theorem pageSerde_reads (tool : String) : Python.Reads (pageSerde tool) (fun _ => pageText tool)
    (fun _ => none) (mirror (pageOf tool)).toDict :=
  (pageSerde_parse tool).trans (pageOf_document tool).symm

/-- An object with names of a source text is one that `json.loads` makes. -/
theorem loaded_object {python : Interpreter} {depth : ℕ} (members : List (String × Value))
    (hnames : (members.map Prod.fst).Nodup)
    (h : ∀ p ∈ members, Loaded python depth p.2) :
    Loaded python (depth + 1) (.dict (members.map (fun p => (lit p.1,p.2)))) := by
  have hkeys : (members.map (fun p => (lit p.1,p.2))).map Prod.fst =
      (members.map Prod.fst).map lit := by
    rw [List.map_map,List.map_map]
    rfl
  refine .dict ?_ ?_ ?_
  · rw [hkeys]
    exact hnames.map lit_injective
  · rw [List.forall_mem_map]
    exact fun p _ => paired_lit p.1
  · rw [List.forall_mem_map]
    exact h

theorem pageOf_loaded (tool : String) :
    Loaded exampleInterpreter 2 (mirror (pageOf tool)).toDict := by
  have hlit : ∀ {depth : ℕ} (text : String), Loaded exampleInterpreter depth (.str (lit text)) :=
    fun text => .str (paired_lit text)
  have hone : Loaded exampleInterpreter 1 (.int 1) := .int (by decide)
  have hstatus : Loaded exampleInterpreter 0 (.int 200) := .int (by decide)
  have hinspection : Loaded exampleInterpreter 1
      (Jobs.Inspection.toDict ⟨.noMatch,some (lit "core-1")⟩) := by
    refine loaded_object [("status",.str (lit "no_match")),("policy_id",.str (lit "core-1"))]
      (by decide) ?_
    simp [hlit]
  have hdata : Loaded exampleInterpreter 1 (mirrorData (pageData "text/html")).toDict := by
    refine loaded_object [("source_id",.str (lit "source-1")),("final_url",.str (lit shortText)),
      ("http_status",.int 200),("content_type",.str (lit "text/html")),
      ("retrieved_at",.str (lit "2026-01-05T09:00:00Z")),("format",.str (lit "markdown")),
      ("conversion_method",.str (lit "native")),("content",.str (lit "hello"))] (by decide) ?_
    simp [hlit,hstatus]
  refine loaded_object [("envelope_version",.int 1),("tool",.str (lit tool)),
    ("tool_version",.int 1),("status",.str (lit "ok")),("trust",.str (lit "external_untrusted")),
    ("inspection",Jobs.Inspection.toDict ⟨.noMatch,some (lit "core-1")⟩),
    ("data",(mirrorData (pageData "text/html")).toDict),("error",.none)]
    (show Envelope.fieldNames.Nodup by decide) ?_
  simp [hlit,hone,hinspection,hdata,Loaded.none]

/-- Both gates accept the page. -/
theorem gates_agree_page :
    SameVerdict (pageSerde "web_fetch") (fun _ => pageText "web_fetch")
      nineParsers (oneUrl shortText (sitePage "/")) nineOffsets
      (mirror (pageOf "web_fetch")).toDict ∧
    ∃ envelope, Jobs.validateEnvelope nineParsers (mirror (pageOf "web_fetch")).toDict =
      .ok envelope := by
  have hdigits : ∀ c : CodePoint, 48 ≤ c.val → c.val ≤ 57 → nineParsers.isDigit c = true :=
    fun c hfirst hlast => decide_eq_true ⟨hfirst,hlast⟩
  have haccepted : ∃ envelope, Jobs.validateEnvelope nineParsers
      (mirror (pageOf "web_fetch")).toDict = .ok envelope := ⟨_,rfl⟩
  have hvalid : (pageOf "web_fetch").validate
      (webFetchPayload (oneUrl shortText (sitePage "/")) nineOffsets) = .ok () := by decide
  have hrust := fromJson_toJson hvalid (pageSerde_parse "web_fetch")
  have hloaded := pageOf_loaded "web_fetch"
  have hreads := pageSerde_reads "web_fetch"
  have hcontrolPlane := ((controlPlane_iff nine_shared).mp haccepted).2
  have hrustGate := ((rustGate_iff hdigits nine_shared hloaded hreads).mp ⟨_,hrust⟩).2
  refine ⟨(gates_agree_iff hdigits nine_shared hloaded hreads).mpr ⟨?_,?_⟩,haccepted⟩
  · exact fun h => (rustGateFault_iff hcontrolPlane).mp h.fault hrustGate
  · exact fun h => controlPlaneFault_iff.mp h.fault hcontrolPlane

/-- With a space before the name of the tool, only the control plane accepts it. -/
theorem gates_differ_padded :
    SharedParsers nineParsers (oneUrl shortText (sitePage "/")) nineOffsets siteUrl isNine ∧
    Loaded exampleInterpreter 2 (mirror (pageOf " web_fetch")).toDict ∧
    Python.Reads (pageSerde " web_fetch") (fun _ => pageText " web_fetch") (fun _ => none)
      (mirror (pageOf " web_fetch")).toDict ∧
    ¬SameVerdict (pageSerde " web_fetch") (fun _ => pageText " web_fetch") nineParsers
      (oneUrl shortText (sitePage "/")) nineOffsets (mirror (pageOf " web_fetch")).toDict := by
  have hdigits : ∀ c : CodePoint, 48 ≤ c.val → c.val ≤ 57 → nineParsers.isDigit c = true :=
    fun c hfirst hlast => decide_eq_true ⟨hfirst,hlast⟩
  have hreads := pageSerde_reads " web_fetch"
  refine ⟨nine_shared,pageOf_loaded _,hreads,fun hsame => ?_⟩
  have hasks := ((rustGate_iff hdigits nine_shared (pageOf_loaded _) hreads).mp
    (hsame.mp ⟨_,rfl⟩)).2
  have hpadded := hasks.unpadded _ List.mem_cons_self (lit " web_fetch") rfl
  exact absurd hpadded (by decide)

end HearthAI.Stages
