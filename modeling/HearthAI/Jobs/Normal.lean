import HearthAI.Jobs.Admitted
import HearthAI.Jobs.Research

/-! # What a validator returns, it returns again for what is written of it -/
namespace HearthAI.Jobs
open Text Python

section
variable {α : Type} {parse : Value → Except Raised α} {write : α → Value}

/-- What is written of an accepted value is accepted as the same value. -/
def Settles (parse : Value → Except Raised α) (write : α → Value) : Prop :=
  ∀ value found, parse value = .ok found → parse (write found) = .ok found

/-! ## Single fields -/

theorem requireString_settles (path : String) (maximum : ℕ) (allowEmpty : Bool) :
    Settles (requireString · path maximum allowEmpty) .str := by
  intro value s h
  obtain ⟨raw,_,rfl,hempty,hlength⟩ := requireString_eq_ok.mp h
  exact requireString_eq_ok.mpr ⟨strip raw,rfl,(strip_strip raw).symm,hempty,hlength⟩

/-- A check of a string after `require_string`, as the fields of results make them. -/
theorem settles_of_string {parse : Value → Except Raised Str} {path : String} {maximum : ℕ}
    {allowEmpty : Bool} {rest : Str → Except Raised Str}
    (hparse : ∀ value, parse value = requireString value path maximum allowEmpty >>= rest)
    (hrest : ∀ s found, rest s = .ok found → found = s) : Settles parse .str := by
  intro value found h
  rw [hparse] at h
  obtain ⟨s,hs,h⟩ := bind_eq_ok.mp h
  obtain rfl := hrest s found h
  rw [hparse]
  exact bind_eq_ok.mpr ⟨found,requireString_settles path maximum allowEmpty value found hs,h⟩

/-- The values of an enumeration, as fields hold them. -/
structure Spelled (members : List α) (valueOf : α → Str) (maximum : ℕ) : Prop where
  all : ∀ member, member ∈ members
  distinct : (members.map valueOf).Nodup
  plain : members.all (fun member => strip (valueOf member) = valueOf member ∧
    valueOf member ≠ [] ∧ (valueOf member).length ≤ maximum) = true

theorem Spelled.injective {members : List α} {valueOf : α → Str} {maximum : ℕ}
    (h : Spelled members valueOf maximum) : Function.Injective valueOf := fun a b hab =>
  List.inj_on_of_nodup_map h.distinct (h.all a) (h.all b) hab

/-- The value of a member is read as that member. -/
theorem Spelled.requireEnum {members : List α} {valueOf : α → Str} {maximum : ℕ}
    (h : Spelled members valueOf maximum) (member : α) (path : String) (message : Str) :
    requireEnum members valueOf (.str (valueOf member)) path maximum message = .ok member := by
  obtain ⟨hstrip,hempty,hlength⟩ := of_decide_eq_true
    (List.all_eq_true.mp h.plain member (h.all member))
  exact (requireEnum_eq_ok h.injective h.all).mpr
    (requireString_eq_ok.mpr ⟨_,rfl,hstrip.symm,.inl hempty,hlength⟩)

theorem requireFormat_settles (path : String) : Settles (requireFormat · path) .str := by
  intro value name h
  exact requireFormat_eq_ok.mpr ⟨rfl,(requireFormat_eq_ok.mp h).2⟩

theorem requireSourceId_settles (isDigit : CodePoint → Bool) :
    Settles (requireSourceId isDigit) .str := by
  refine settles_of_string (fun _ => rfl) fun s found h => ?_
  obtain ⟨_,_,h⟩ := bind_eq_ok.mp h
  exact (Except.ok.inj h).symm

theorem requireResultUrl_settles (urlsplit : UrlSplit) (path : String) :
    Settles (requireResultUrl urlsplit · path) .str := by
  refine settles_of_string (fun _ => rfl) fun s found h => ?_
  obtain ⟨_,_,h⟩ := bind_eq_ok.mp h
  obtain ⟨_,_,h⟩ := bind_eq_ok.mp h
  exact (Except.ok.inj h).symm

theorem requireContentType_settles : Settles requireContentType .str := by
  refine settles_of_string (fun _ => rfl) fun s found h => ?_
  obtain ⟨_,_,h⟩ := bind_eq_ok.mp h
  exact (Except.ok.inj h).symm

theorem requireTimestamp_settles (fromisoformat : Str → Except Builtin Unit) (path : String)
    (standard : String) : Settles (requireTimestamp fromisoformat · path standard) .str := by
  refine settles_of_string (fun _ => rfl) fun s found h => ?_
  obtain ⟨_,_,h⟩ := bind_eq_ok.mp h
  exact (Except.ok.inj h).symm

theorem requireHttpStatus_settles : Settles requireHttpStatus .int := by
  intro value status h
  cases value with
  | int i =>
    obtain ⟨_,hrange,h⟩ := bind_eq_ok.mp h
    obtain rfl := Except.ok.inj h
    exact bind_eq_ok.mpr ⟨(),hrange,rfl⟩
  | _ => cases h

theorem requireConfidence_settles (path : String) : Settles (requireConfidence · path) .str := by
  intro value confidence h
  cases value with
  | str s =>
    obtain ⟨_,hknown,h⟩ := bind_eq_ok.mp h
    obtain rfl := Except.ok.inj h
    exact bind_eq_ok.mpr ⟨(),hknown,rfl⟩
  | _ => cases h

theorem WebResearchRequest.requireDepth_settles : Settles requireDepth .str := by
  intro value depth h
  cases value with
  | str s =>
    obtain ⟨_,hknown,h⟩ := bind_eq_ok.mp h
    obtain rfl := Except.ok.inj h
    exact bind_eq_ok.mpr ⟨(),hknown,rfl⟩
  | _ => cases h

theorem WebResearchRequest.requireLimit_settles : Settles requireLimit .int := by
  intro value limit h
  cases value with
  | int i =>
    obtain ⟨_,hrange,h⟩ := bind_eq_ok.mp h
    obtain rfl := Except.ok.inj h
    exact bind_eq_ok.mpr ⟨(),hrange,rfl⟩
  | _ => cases h

/-! ## Arrays -/

/-- Each item is written and read under the path of its index. -/
theorem mapM_settles {parse : Value × ℕ → Except Raised α} {index : ℕ} {items : List Value}
    {found : List α} (hparse : ∀ index, Settles (fun value => parse (value,index)) write)
    (h : (items.zipIdx index).mapM parse = .ok found) :
    ((found.map write).zipIdx index).mapM parse = .ok found := by
  induction items generalizing index found with
  | nil =>
    obtain rfl := Except.ok.inj h
    rfl
  | cons item items ih =>
    rw [List.zipIdx_cons,List.mapM_cons] at h
    obtain ⟨first,hfirst,h⟩ := bind_eq_ok.mp h
    obtain ⟨rest,hrest,h⟩ := bind_eq_ok.mp h
    obtain rfl := Except.ok.inj h
    rw [List.map_cons,List.zipIdx_cons,List.mapM_cons]
    exact bind_eq_ok.mpr ⟨first,hparse index item first hfirst,bind_eq_ok.mpr ⟨rest,ih hrest,rfl⟩⟩

theorem eachItem_settles {parse : Value → String → Except Raised α} {path : String}
    {items : List Value} {found : List α} (hparse : ∀ path, Settles (parse · path) write)
    (h : eachItem parse path items = .ok found) :
    eachItem parse path (found.map write) = .ok found :=
  mapM_settles (fun _ => hparse _) h

theorem length_mapM {β : Type} {f : α → Except Raised β} {l : List α} {r : List β}
    (h : l.mapM f = .ok r) : r.length = l.length := by
  induction l generalizing r with
  | nil =>
    obtain rfl := Except.ok.inj h
    rfl
  | cons a l ih =>
    rw [List.mapM_cons] at h
    obtain ⟨first,_,h⟩ := bind_eq_ok.mp h
    obtain ⟨rest,hrest,h⟩ := bind_eq_ok.mp h
    obtain rfl := Except.ok.inj h
    rw [List.length_cons,List.length_cons,ih hrest]

/-- An array within its bound, each of whose items is read. -/
theorem list_settles {parse : Value → String → Except Raised α} {path : String} {maximum : ℕ}
    {given : Value} {items : List Value} {found : List α}
    (hitems : requireList given path maximum = .ok items)
    (h : eachItem parse path items = .ok found) :
    requireList (.list (found.map write)) path maximum = .ok (found.map write) := by
  obtain ⟨_,hlength⟩ := requireList_eq_ok.mp hitems
  have hfound := length_mapM h
  rw [List.length_zipIdx] at hfound
  exact requireList_eq_ok.mpr ⟨rfl,by rw [List.length_map,hfound]; exact hlength⟩

theorem stringArray_settles (path : String) :
    Settles (stringArray · path) (fun found => .list (found.map Value.str)) := by
  intro value found h
  obtain ⟨items,hitems,h⟩ := bind_eq_ok.mp h
  have hparse : ∀ path, Settles (requireString · path 2000 false) Value.str :=
    fun path => requireString_settles path 2000 false
  exact bind_eq_ok.mpr ⟨_,list_settles hitems h,eachItem_settles hparse h⟩

/-! ## Objects -/

/-- An object that is written with all of its fields. -/
theorem exactFields_of_keys {data : Dict Str Value} {required optional : List Str} {path : String}
    (h : data.map Prod.fst = required ++ optional) :
    requireExactFields data required path optional = .ok () := by
  rw [requireExactFields_eq_ok,h]
  exact ⟨fun key hkey => List.mem_append_left _ hkey,fun key hkey => List.mem_append.mp hkey⟩

theorem FailureCode.spelled : Spelled members value 64 := ⟨by rintro ⟨⟩ <;> decide,by decide,by decide⟩

theorem ToolFailure.settles : Settles fromDict toDict := by
  intro value failure h
  obtain ⟨data,_,_,h⟩ := object_eq_ok.mp h
  obtain ⟨code,_,h⟩ := field_eq_ok.mp h
  obtain ⟨message,⟨given,_,hmessage⟩,h⟩ := field_eq_ok.mp h
  obtain rfl := Except.ok.inj h
  refine object_eq_ok.mpr ⟨_,rfl,exactFields_of_keys rfl,?_⟩
  refine field_eq_ok.mpr ⟨code,⟨_,rfl,FailureCode.spelled.requireEnum code _ _⟩,?_⟩
  exact field_eq_ok.mpr ⟨message,⟨_,rfl,requireString_settles _ _ _ given message hmessage⟩,rfl⟩

theorem GitChangeRequest.settles : Settles fromDict toDict := by
  intro value request h
  obtain ⟨data,_,_,h⟩ := object_eq_ok.mp h
  obtain ⟨repositoryId,⟨given,_,hrepository⟩,h⟩ := field_eq_ok.mp h
  obtain ⟨_,hauthorised,h⟩ := bind_eq_ok.mp h
  obtain ⟨instruction,⟨given',_,hinstruction⟩,h⟩ := field_eq_ok.mp h
  obtain rfl := Except.ok.inj h
  refine object_eq_ok.mpr ⟨_,rfl,exactFields_of_keys rfl,?_⟩
  refine field_eq_ok.mpr ⟨_,⟨_,rfl,requireString_settles _ _ _ given repositoryId hrepository⟩,?_⟩
  refine bind_eq_ok.mpr ⟨(),hauthorised,?_⟩
  exact field_eq_ok.mpr ⟨_,⟨_,rfl,requireString_settles _ _ _ given' instruction hinstruction⟩,rfl⟩

theorem WebFetchRequest.settles (urlsplit : UrlSplit) : Settles (fromDict urlsplit) toDict := by
  intro value request h
  obtain ⟨data,raw,_,hadmits⟩ := fromDict_eq_ok.mp h
  refine fromDict_eq_ok.mpr ⟨_,request.url,rfl,?_⟩
  exact ⟨by simp,rfl,by rw [hadmits.url,strip_strip],hadmits.nonempty,hadmits.short,
    hadmits.fetchable,rfl,hadmits.named⟩

/-- The depth and the limit are written out, so that no default is taken for them. -/
theorem WebResearchRequest.settles : Settles fromDict toDict := by
  intro value request h
  obtain ⟨data,_,_,h⟩ := object_eq_ok.mp h
  obtain ⟨question,⟨given,_,hquestion⟩,h⟩ := field_eq_ok.mp h
  obtain ⟨depth,hdepth,h⟩ := bind_eq_ok.mp h
  obtain ⟨limit,hlimit,h⟩ := bind_eq_ok.mp h
  obtain rfl := Except.ok.inj h
  refine object_eq_ok.mpr ⟨_,rfl,exactFields_of_keys rfl,?_⟩
  refine field_eq_ok.mpr ⟨_,⟨_,rfl,requireString_settles _ _ _ given question hquestion⟩,?_⟩
  refine bind_eq_ok.mpr ⟨depth,requireDepth_settles _ depth hdepth,?_⟩
  exact bind_eq_ok.mpr ⟨limit,requireLimit_settles _ limit hlimit,rfl⟩

theorem Evidence.settles (path : String) : Settles (fromDict · path) toDict := by
  intro value evidence h
  obtain ⟨data,_,_,h⟩ := object_eq_ok.mp h
  obtain ⟨sourceId,⟨given,_,hsource⟩,h⟩ := field_eq_ok.mp h
  obtain ⟨support,⟨given',_,hsupport⟩,h⟩ := field_eq_ok.mp h
  obtain rfl := Except.ok.inj h
  refine object_eq_ok.mpr ⟨_,rfl,exactFields_of_keys rfl,?_⟩
  refine field_eq_ok.mpr ⟨_,⟨_,rfl,requireString_settles _ _ _ given sourceId hsource⟩,?_⟩
  exact field_eq_ok.mpr ⟨_,⟨_,rfl,requireString_settles _ _ _ given' support hsupport⟩,rfl⟩

theorem Finding.settles (path : String) : Settles (fromDict · path) toDict := by
  intro value finding h
  obtain ⟨data,_,_,h⟩ := object_eq_ok.mp h
  obtain ⟨items,⟨given,_,hitems⟩,h⟩ := field_eq_ok.mp h
  obtain ⟨evidence,hevidence,h⟩ := bind_eq_ok.mp h
  obtain ⟨_,hnonempty,h⟩ := bind_eq_ok.mp h
  obtain ⟨confidence,⟨given',_,hconfidence⟩,h⟩ := field_eq_ok.mp h
  obtain ⟨statement,⟨given'',_,hstatement⟩,h⟩ := field_eq_ok.mp h
  obtain rfl := Except.ok.inj h
  refine object_eq_ok.mpr ⟨_,rfl,requireExactFields_eq_ok.mpr ⟨by simp,by simp⟩,?_⟩
  refine field_eq_ok.mpr ⟨_,⟨_,rfl,list_settles hitems hevidence⟩,?_⟩
  refine bind_eq_ok.mpr ⟨evidence,eachItem_settles Evidence.settles hevidence,?_⟩
  refine bind_eq_ok.mpr ⟨(),hnonempty,?_⟩
  refine field_eq_ok.mpr ⟨_,⟨_,rfl,requireConfidence_settles path given' confidence hconfidence⟩,?_⟩
  exact field_eq_ok.mpr ⟨_,⟨_,rfl,requireString_settles _ _ _ given'' statement hstatement⟩,rfl⟩

section
variable (parsers : Parsers)

theorem Source.settles (path : String) : Settles (fromDict parsers · path) toDict := by
  intro value source h
  obtain ⟨data,_,_,h⟩ := object_eq_ok.mp h
  obtain ⟨sourceId,⟨given,_,hsource⟩,h⟩ := field_eq_ok.mp h
  obtain ⟨url,⟨given',_,hurl⟩,h⟩ := field_eq_ok.mp h
  obtain ⟨retrievedAt,⟨given'',_,hretrieved⟩,h⟩ := field_eq_ok.mp h
  obtain ⟨title,⟨titled,_,htitle⟩,h⟩ := field_eq_ok.mp h
  obtain rfl := Except.ok.inj h
  refine object_eq_ok.mpr ⟨_,rfl,exactFields_of_keys rfl,?_⟩
  refine field_eq_ok.mpr ⟨_,⟨_,rfl,requireString_settles _ _ _ given sourceId hsource⟩,?_⟩
  refine field_eq_ok.mpr ⟨_,⟨_,rfl,requireResultUrl_settles _ _ given' url hurl⟩,?_⟩
  refine field_eq_ok.mpr ⟨_,⟨_,rfl,requireTimestamp_settles _ _ _ given'' retrievedAt hretrieved⟩,?_⟩
  exact field_eq_ok.mpr ⟨_,⟨_,rfl,requireString_settles _ _ _ titled title htitle⟩,rfl⟩

theorem WebResearchResult.settles : Settles (fromDict parsers) toDict := by
  intro value result h
  obtain ⟨data,_,_,h⟩ := object_eq_ok.mp h
  obtain ⟨items,⟨given,_,hitems⟩,h⟩ := field_eq_ok.mp h
  obtain ⟨findings,hfindings,h⟩ := bind_eq_ok.mp h
  obtain ⟨items',⟨given',_,hitems'⟩,h⟩ := field_eq_ok.mp h
  obtain ⟨sources,hsources,h⟩ := bind_eq_ok.mp h
  obtain ⟨_,hdistinct,h⟩ := bind_eq_ok.mp h
  obtain ⟨_,hknown,h⟩ := bind_eq_ok.mp h
  obtain ⟨conflicts,⟨given'',_,hconflicts⟩,h⟩ := field_eq_ok.mp h
  obtain ⟨limitations,⟨limited,_,hlimitations⟩,h⟩ := field_eq_ok.mp h
  obtain ⟨summary,⟨summed,_,hsummary⟩,h⟩ := field_eq_ok.mp h
  obtain rfl := Except.ok.inj h
  refine object_eq_ok.mpr ⟨_,rfl,exactFields_of_keys rfl,?_⟩
  refine field_eq_ok.mpr ⟨_,⟨_,rfl,list_settles hitems hfindings⟩,?_⟩
  refine bind_eq_ok.mpr ⟨findings,eachItem_settles Finding.settles hfindings,?_⟩
  refine field_eq_ok.mpr ⟨_,⟨_,rfl,list_settles hitems' hsources⟩,?_⟩
  refine bind_eq_ok.mpr ⟨sources,eachItem_settles (Source.settles parsers) hsources,?_⟩
  refine bind_eq_ok.mpr ⟨(),hdistinct,bind_eq_ok.mpr ⟨(),hknown,?_⟩⟩
  refine field_eq_ok.mpr ⟨_,⟨_,rfl,stringArray_settles _ given'' conflicts hconflicts⟩,?_⟩
  refine field_eq_ok.mpr ⟨_,⟨_,rfl,stringArray_settles _ limited limitations hlimitations⟩,?_⟩
  exact field_eq_ok.mpr ⟨_,⟨_,rfl,requireString_settles _ _ _ summed summary hsummary⟩,rfl⟩

theorem ConversionMethod.spelled : Spelled members value 32 :=
  ⟨by rintro ⟨⟩ <;> decide,by decide,by decide⟩

theorem WebFetchData.settles : Settles (fromDict parsers) toDict := by
  intro value fetched h
  obtain ⟨data,_,_,h⟩ := object_eq_ok.mp h
  obtain ⟨sourceId,⟨given,_,hsource⟩,h⟩ := field_eq_ok.mp h
  obtain ⟨finalUrl,⟨given',_,hurl⟩,h⟩ := field_eq_ok.mp h
  obtain ⟨httpStatus,⟨given'',_,hstatus⟩,h⟩ := field_eq_ok.mp h
  obtain ⟨contentType,⟨typed,_,htype⟩,h⟩ := field_eq_ok.mp h
  obtain ⟨retrievedAt,⟨timed,_,hretrieved⟩,h⟩ := field_eq_ok.mp h
  obtain ⟨output,⟨formatted,_,hformat⟩,h⟩ := field_eq_ok.mp h
  obtain ⟨method,_,h⟩ := field_eq_ok.mp h
  obtain ⟨content,⟨contained,_,hcontent⟩,h⟩ := field_eq_ok.mp h
  obtain ⟨_,hinert,h⟩ := bind_eq_ok.mp h
  obtain rfl := Except.ok.inj h
  refine object_eq_ok.mpr ⟨_,rfl,exactFields_of_keys rfl,?_⟩
  refine field_eq_ok.mpr ⟨_,⟨_,rfl,requireSourceId_settles _ given sourceId hsource⟩,?_⟩
  refine field_eq_ok.mpr ⟨_,⟨_,rfl,requireResultUrl_settles _ _ given' finalUrl hurl⟩,?_⟩
  refine field_eq_ok.mpr ⟨_,⟨_,rfl,requireHttpStatus_settles given'' httpStatus hstatus⟩,?_⟩
  refine field_eq_ok.mpr ⟨_,⟨_,rfl,requireContentType_settles typed contentType htype⟩,?_⟩
  refine field_eq_ok.mpr ⟨_,⟨_,rfl,requireTimestamp_settles _ _ _ timed retrievedAt hretrieved⟩,?_⟩
  refine field_eq_ok.mpr ⟨_,⟨_,rfl,requireFormat_settles _ formatted output hformat⟩,?_⟩
  refine field_eq_ok.mpr ⟨_,⟨_,rfl,ConversionMethod.spelled.requireEnum method _ _⟩,?_⟩
  refine field_eq_ok.mpr ⟨_,⟨_,rfl,requireString_settles _ _ _ contained content hcontent⟩,?_⟩
  exact bind_eq_ok.mpr ⟨(),hinert,rfl⟩

end

theorem ShippedTool.settles (urlsplit : UrlSplit) (sha256Hex : Bytes → String) (tool : ShippedTool) :
    Settles (tool.definition urlsplit sha256Hex).validateRequest
      (tool.definition urlsplit sha256Hex).toDict := by
  cases tool with
  | webFetch => exact WebFetchRequest.settles urlsplit
  | webResearch => exact WebResearchRequest.settles
  | gitChange => exact GitChangeRequest.settles

end

/-- A retry with the written form of the request offers the same run, digest included. -/
def RetryKeeps (service : RunService) (definition : ToolDefinition) : Prop :=
  ∀ call id now request,
    service.registry.resolve call.toolKey call.toolVersion = .ok definition →
    definition.validateRequest call.payload = .ok request →
    service.prepare { call with payload := definition.toDict request } id now =
      service.prepare call id now

theorem retryKeeps_of_settles {service : RunService} {definition : ToolDefinition}
    (h : Settles definition.validateRequest definition.toDict) : RetryKeeps service definition := by
  intro call id now request hresolve hvalid
  have hagain := h call.payload request hvalid
  simp only [RunService.prepare,hresolve,RunService.prepareWith,hagain,hvalid]

/-- Parsing normalizes, at every level of every contract, and retries may send what it yields. -/
theorem parsing_normalizes (parsers : Parsers) (sha256Hex : Bytes → String) :
    Settles (WebFetchRequest.fromDict parsers.urlsplit) WebFetchRequest.toDict ∧
    Settles (WebFetchData.fromDict parsers) WebFetchData.toDict ∧
    Settles WebResearchRequest.fromDict WebResearchRequest.toDict ∧
    Settles (WebResearchResult.fromDict parsers) WebResearchResult.toDict ∧
    Settles GitChangeRequest.fromDict GitChangeRequest.toDict ∧
    Settles ToolFailure.fromDict ToolFailure.toDict ∧
    ∀ (service : RunService) (tool : ShippedTool),
      RetryKeeps service (tool.definition parsers.urlsplit sha256Hex) :=
  ⟨WebFetchRequest.settles _,WebFetchData.settles parsers,WebResearchRequest.settles,
    WebResearchResult.settles parsers,GitChangeRequest.settles,ToolFailure.settles,
    fun _ tool => retryKeeps_of_settles (tool.settles _ sha256Hex)⟩

/-- Some value that is accepted is written in another form, which is accepted as the same. -/
def Normalizes {α : Type} (parse : Value → Except Raised α) (write : α → Value) : Prop :=
  ∃ value found, parse value = .ok found ∧ write found ≠ value ∧ parse (write found) = .ok found

/-- The library, on the texts below. -/
def siteParsers : Parsers where
  urlsplit _ := .ok ⟨lit "https",none,none,some (lit "example.com"),.ok none⟩
  fromisoformat _ := .ok ()
  isDigit c := 48 ≤ c.val && c.val ≤ 57

def siteRequest : Value := .dict [(lit "url",.str (lit " https://example.com"))]

def siteData : Value :=
  .dict [(lit "source_id",.str (lit "source-1")),(lit "final_url",.str (lit "https://example.com")),
    (lit "http_status",.int 200),(lit "content_type",.str (lit "text/plain")),
    (lit "retrieved_at",.str (lit "2026-10-01T12:00:00Z")),(lit "format",.str (lit "text")),
    (lit "conversion_method",.str (lit "basic")),(lit "content",.str (lit "ok\n"))]

def siteQuestion : Value := .dict [(lit "question",.str (lit " Current news\n"))]

def siteResult : Value :=
  .dict [(lit "summary",.str (lit "One site ")),
    (lit "findings",.list [.dict [(lit "statement",.str (lit "It is up")),
      (lit "evidence",.list [.dict [(lit "source_id",.str (lit " s1")),(lit "support",.str (lit "ok"))]]),
      (lit "confidence",.str (lit "high"))]]),
    (lit "sources",.list [.dict [(lit "id",.str (lit "s1")),(lit "url",.str (lit "https://example.com")),
      (lit "title",.str (lit "Example")),(lit "retrieved_at",.str (lit "2026-10-01T12:00:00Z"))]]),
    (lit "conflicts",.list []),(lit "limitations",.list [.str (lit " one visit")])]

def siteChange : Value :=
  .dict [(lit "repository_id",.str (lit "hearthai")),(lit "instruction",.str (lit "Fix it. "))]

def siteFailure : Value :=
  .dict [(lit "code",.str (lit " internal_error")),(lit "message",.str (lit "Too late"))]

/-- Each of the six accepts a value with blanks around a text, and then what it has made of it. -/
theorem parsing_normalizes_each :
    Normalizes (WebFetchRequest.fromDict siteParsers.urlsplit) WebFetchRequest.toDict ∧
    Normalizes (WebFetchData.fromDict siteParsers) WebFetchData.toDict ∧
    Normalizes WebResearchRequest.fromDict WebResearchRequest.toDict ∧
    Normalizes (WebResearchResult.fromDict siteParsers) WebResearchResult.toDict ∧
    Normalizes GitChangeRequest.fromDict GitChangeRequest.toDict ∧
    Normalizes ToolFailure.fromDict ToolFailure.toDict := by
  obtain ⟨hfetch,hdata,hresearch,hresult,hchange,hfailure,_⟩ :=
    parsing_normalizes siteParsers fun _ => ""
  have hrequest : WebFetchRequest.fromDict siteParsers.urlsplit siteRequest =
      .ok ⟨lit "https://example.com",lit "markdown"⟩ := by decide
  have hpage : WebFetchData.fromDict siteParsers siteData = .ok ⟨lit "source-1",
      lit "https://example.com",200,lit "text/plain",lit "2026-10-01T12:00:00Z",lit "text",.basic,
        lit "ok"⟩ := by decide
  have hquestion : WebResearchRequest.fromDict siteQuestion =
      .ok ⟨lit "Current news",lit "standard",8⟩ := by decide
  have hfindings : WebResearchResult.fromDict siteParsers siteResult = .ok ⟨lit "One site",
      [⟨lit "It is up",[⟨lit "s1",lit "ok"⟩],lit "high"⟩],
      [⟨lit "s1",lit "https://example.com",lit "Example",lit "2026-10-01T12:00:00Z"⟩],[],
      [lit "one visit"]⟩ := by decide
  have hinstruction : GitChangeRequest.fromDict siteChange = .ok ⟨lit "hearthai",lit "Fix it."⟩ := by
    decide
  have hcode : ToolFailure.fromDict siteFailure = .ok ⟨.internalError,lit "Too late"⟩ := by decide
  exact ⟨⟨_,_,hrequest,nofun,hfetch _ _ hrequest⟩,⟨_,_,hpage,nofun,hdata _ _ hpage⟩,
    ⟨_,_,hquestion,nofun,hresearch _ _ hquestion⟩,⟨_,_,hfindings,nofun,hresult _ _ hfindings⟩,
    ⟨_,_,hinstruction,nofun,hchange _ _ hinstruction⟩,⟨_,_,hcode,nofun,hfailure _ _ hcode⟩⟩

end HearthAI.Jobs
