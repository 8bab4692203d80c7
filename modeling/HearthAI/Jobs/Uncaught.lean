import HearthAI.Jobs.GitChange
import HearthAI.Jobs.Research

/-! # Which values a validator answers with another exception than `ContractError` -/
namespace HearthAI.Jobs
open Python

def Raised.IsContract : Raised → Prop
  | contract _ => True
  | _ => False

/-- The library raises plain `ValueError`, and only on malformed text. -/
structure Parsers.Documented (parsers : Parsers) : Prop where
  port : ∀ {text parsed e}, parsers.urlsplit text = .ok parsed → parsed.port = .error e →
    e = .valueError
  timestamp : ∀ {text e}, parsers.fromisoformat text = .error e → e = .valueError

section
variable {α β : Type} {value : Value} {data : Dict Str Value} {path : String} {key : Str}
  {required optional : List Str} {message : Str} {maximum : ℕ}

/-! ## The checks of single fields -/

theorem not_escapes_check {condition : Prop} [Decidable condition] :
    ¬Escapes Raised.IsContract (check condition message) := by
  unfold check
  split_ifs
  · exact not_escapes_ok
  · simp [Raised.IsContract]

theorem not_escapes_requireObject : ¬Escapes Raised.IsContract (requireObject value path) := by
  cases value <;> simp [requireObject,Raised.IsContract]

theorem not_escapes_requireExactFields :
    ¬Escapes Raised.IsContract (requireExactFields data required path optional) :=
  not_escapes_bind not_escapes_check fun _ _ => not_escapes_check

theorem not_escapes_requireString {allowEmpty : Bool} :
    ¬Escapes Raised.IsContract (requireString value path maximum allowEmpty) := by
  cases value with
  | str raw =>
    refine not_escapes_bind not_escapes_check fun _ _ => ?_
    exact not_escapes_bind not_escapes_check fun _ _ => not_escapes_pure
  | _ => simp [requireString,Raised.IsContract]

theorem not_escapes_requireList : ¬Escapes Raised.IsContract (requireList value path maximum) := by
  cases value with
  | list items => exact not_escapes_bind not_escapes_check fun _ _ => not_escapes_pure
  | _ => simp [requireList,Raised.IsContract]

/-- The constructor of an enumeration raises `ValueError`, which is caught. -/
theorem not_escapes_requireEnum {members : List α} {valueOf : α → Str} :
    ¬Escapes Raised.IsContract (requireEnum members valueOf value path maximum message) := by
  rintro ⟨raised,hraised,hother⟩
  obtain ⟨cause,hcause,rfl⟩ := mapError_eq_error.mp hraised
  split_ifs at hother with hvalue
  · exact hother trivial
  · rcases bind_eq_error.mp hcause with hstring | ⟨text,_,henum⟩
    · exact not_escapes_requireString ⟨cause,hstring,hother⟩
    · unfold enumOf at henum
      split at henum
      · cases henum
      · obtain rfl := Except.error.inj henum
        exact hvalue rfl

theorem not_escapes_item (hfields : requireExactFields data required path optional = .ok ())
    (hkey : key ∈ required) : ¬Escapes Raised.IsContract (item data key) := by
  have hpresent := (requireExactFields_eq_ok.mp hfields).1 key hkey
  unfold item
  cases hget : data.get key with
  | none => exact absurd hpresent (Dict.get_eq_none.mp hget)
  | some found => exact not_escapes_ok

theorem escapes_field {check : Value → Except Raised α} {rest : α → Except Raised β}
    (hfields : requireExactFields data required path optional = .ok ()) (hkey : key ∈ required) :
    Escapes Raised.IsContract (do rest (← check (← item data key))) ↔
      (∃ given, data.get key = some given ∧ Escapes Raised.IsContract (check given)) ∨
        ∃ found, Reads data key check found ∧ Escapes Raised.IsContract (rest found) := by
  rw [escapes_bind]
  simp only [not_escapes_item hfields hkey,false_or,escapes_bind,item_eq_ok]
  constructor
  · rintro ⟨given,hgiven,h | ⟨found,hfound,h⟩⟩
    · exact .inl ⟨given,hgiven,h⟩
    · exact .inr ⟨found,⟨given,hgiven,hfound⟩,h⟩
  · rintro (⟨given,hgiven,h⟩ | ⟨found,⟨given,hgiven,hfound⟩,h⟩)
    · exact ⟨given,hgiven,.inl h⟩
    · exact ⟨given,hgiven,.inr ⟨found,hfound,h⟩⟩

/-- A check that raises nothing else is only passed. -/
theorem escapes_safe {check : Value → Except Raised α} {rest : α → Except Raised β}
    (hfields : requireExactFields data required path optional = .ok ()) (hkey : key ∈ required)
    (hcheck : ∀ given, ¬Escapes Raised.IsContract (check given)) :
    Escapes Raised.IsContract (do rest (← check (← item data key))) ↔
      ∃ found, Reads data key check found ∧ Escapes Raised.IsContract (rest found) := by
  rw [escapes_field hfields hkey]
  exact or_iff_right fun ⟨given,_,h⟩ => hcheck given h

theorem not_escapes_safe {check : Value → Except Raised α} {rest : α → Except Raised β}
    (hfields : requireExactFields data required path optional = .ok ()) (hkey : key ∈ required)
    (hcheck : ∀ given, ¬Escapes Raised.IsContract (check given))
    (hrest : ∀ found, ¬Escapes Raised.IsContract (rest found)) :
    ¬Escapes Raised.IsContract (do rest (← check (← item data key))) := by
  rw [escapes_safe hfields hkey hcheck]
  rintro ⟨found,_,h⟩
  exact hrest found h

/-- An object with its fields, and what its members raise. -/
theorem escapes_object {rest : Dict Str Value → Except Raised β} :
    Escapes Raised.IsContract (do
      let data ← requireObject value path
      requireExactFields data required path optional
      rest data) ↔ ∃ data, value = .dict data ∧
        requireExactFields data required path optional = .ok () ∧
        Escapes Raised.IsContract (rest data) := by
  simp only [escapes_bind,not_escapes_requireObject,not_escapes_requireExactFields,false_or,
    requireObject_eq_ok]
  exact exists_congr fun data => and_congr_right fun _ =>
    ⟨fun ⟨_,hfields,h⟩ => ⟨hfields,h⟩,fun ⟨hfields,h⟩ => ⟨(),hfields,h⟩⟩

/-- A value that is a member of no set, because it has no hash. -/
def Unhashable : Value → Prop
  | .list _ => True
  | .dict _ => True
  | _ => False

theorem escapes_requireFormat :
    Escapes Raised.IsContract (requireFormat value path) ↔ Unhashable value := by
  cases value with
  | str name =>
    simp only [Unhashable,iff_false]
    exact not_escapes_bind not_escapes_check fun _ _ => not_escapes_pure
  | _ => simp [requireFormat,Unhashable,Raised.IsContract]

end

/-- `urlsplit` does not read the text. -/
def Unsplittable (urlsplit : UrlSplit) (text : Str) : Prop := ∃ e, urlsplit text = .error e

section
variable {parsers : Parsers} {value : Value} {path : String}

theorem escapes_urlsplit {urlsplit : UrlSplit} {text : Str} :
    Escapes Raised.IsContract ((urlsplit text).mapError .builtin) ↔ Unsplittable urlsplit text := by
  unfold Unsplittable
  cases urlsplit text <;> simp [Except.mapError,Raised.IsContract]

theorem escapes_requireResultUrl {urlsplit : UrlSplit} :
    Escapes Raised.IsContract (requireResultUrl urlsplit value path) ↔
      ∃ url, requireString value path maxUrlChars false = .ok url ∧ Unsplittable urlsplit url := by
  unfold requireResultUrl
  simp only [escapes_bind,not_escapes_requireString,not_escapes_check,not_escapes_pure,
    escapes_urlsplit,false_or,or_false,and_false,exists_false]

theorem not_escapes_requireTimestamp {standard : String} (hparsers : parsers.Documented) :
    ¬Escapes Raised.IsContract (requireTimestamp parsers.fromisoformat value path standard) := by
  refine not_escapes_bind not_escapes_requireString fun text _ => ?_
  refine not_escapes_bind ?_ fun _ _ => not_escapes_pure
  rintro ⟨raised,hraised,hother⟩
  obtain ⟨e,he,rfl⟩ := mapError_eq_error.mp hraised
  obtain rfl := hparsers.timestamp he
  exact hother trivial

theorem escapes_checkFetchable (hparsers : parsers.Documented) {url : Str} :
    Escapes Raised.IsContract (checkFetchable parsers.urlsplit url) ↔
      Unsplittable parsers.urlsplit (strip url) := by
  unfold checkFetchable
  rw [escapes_bind,escapes_urlsplit]
  refine or_iff_left ?_
  rintro ⟨parsed,hparsed,h⟩
  refine absurd h (not_escapes_bind not_escapes_check fun _ _ => ?_)
  refine not_escapes_bind not_escapes_check fun _ _ => ?_
  refine not_escapes_bind not_escapes_check fun _ _ => ?_
  refine not_escapes_bind ?_ fun _ _ => not_escapes_check
  rintro ⟨raised,hraised,hother⟩
  obtain ⟨e,he,rfl⟩ := mapError_eq_error.mp hraised
  obtain rfl := hparsers.port (mapError_eq_ok.mp hparsed) he
  exact hother trivial

/-! ## The validators that raise nothing else -/

theorem ToolFailure.not_escapes_fromDict : ¬Escapes Raised.IsContract (fromDict value) := by
  refine not_escapes_bind not_escapes_requireObject fun data _ => ?_
  refine not_escapes_bind not_escapes_requireExactFields fun _ hfields => ?_
  refine not_escapes_safe hfields (by simp) (fun _ => not_escapes_requireEnum) fun _ => ?_
  exact not_escapes_safe hfields (by simp) (fun _ => not_escapes_requireString) fun _ =>
    not_escapes_pure

theorem GitChangeRequest.not_escapes_fromDict : ¬Escapes Raised.IsContract (fromDict value) := by
  refine not_escapes_bind not_escapes_requireObject fun data _ => ?_
  refine not_escapes_bind not_escapes_requireExactFields fun _ hfields => ?_
  refine not_escapes_safe hfields (by simp) (fun _ => not_escapes_requireString) fun _ => ?_
  refine not_escapes_bind not_escapes_check fun _ _ => ?_
  exact not_escapes_safe hfields (by simp) (fun _ => not_escapes_requireString) fun _ =>
    not_escapes_pure

/-- Membership in a tuple compares, and needs no hash. -/
theorem WebResearchRequest.not_escapes_requireDepth :
    ¬Escapes Raised.IsContract (requireDepth value) := by
  cases value with
  | str depth => exact not_escapes_bind not_escapes_check fun _ _ => not_escapes_pure
  | _ => simp [requireDepth,Raised.IsContract]

theorem WebResearchRequest.not_escapes_requireLimit :
    ¬Escapes Raised.IsContract (requireLimit value) := by
  cases value with
  | int limit => exact not_escapes_bind not_escapes_check fun _ _ => not_escapes_pure
  | _ => simp [requireLimit,Raised.IsContract]

theorem WebResearchRequest.not_escapes_fromDict : ¬Escapes Raised.IsContract (fromDict value) := by
  refine not_escapes_bind not_escapes_requireObject fun data _ => ?_
  refine not_escapes_bind not_escapes_requireExactFields fun _ hfields => ?_
  refine not_escapes_safe hfields (by simp) (fun _ => not_escapes_requireString) fun _ => ?_
  refine not_escapes_bind not_escapes_requireDepth fun _ _ => ?_
  exact not_escapes_bind not_escapes_requireLimit fun _ _ => not_escapes_pure

theorem Inspection.not_escapes_fromDict : ¬Escapes Raised.IsContract (fromDict value) := by
  refine not_escapes_bind not_escapes_requireObject fun data _ => ?_
  refine not_escapes_bind not_escapes_requireExactFields fun _ hfields => ?_
  refine not_escapes_safe hfields (by simp) (fun _ => not_escapes_requireEnum) fun _ => ?_
  refine not_escapes_safe hfields (by simp) (fun given => ?_) fun _ => not_escapes_pure
  cases given with
  | none => exact not_escapes_ok
  | _ =>
    refine not_escapes_bind not_escapes_requireString fun _ _ => ?_
    exact not_escapes_bind not_escapes_check fun _ _ => not_escapes_pure

theorem EnvelopeError.not_escapes_fromDict : ¬Escapes Raised.IsContract (fromDict value) := by
  refine not_escapes_bind not_escapes_requireObject fun data _ => ?_
  refine not_escapes_bind not_escapes_requireExactFields fun _ hfields => ?_
  refine not_escapes_safe hfields (by simp) (fun _ => not_escapes_requireEnum) fun _ => ?_
  refine not_escapes_safe hfields (by simp) (fun _ => not_escapes_requireString) fun _ => ?_
  exact not_escapes_bind not_escapes_check fun _ _ => not_escapes_pure

theorem Evidence.not_escapes_fromDict : ¬Escapes Raised.IsContract (fromDict value path) := by
  refine not_escapes_bind not_escapes_requireObject fun data _ => ?_
  refine not_escapes_bind not_escapes_requireExactFields fun _ hfields => ?_
  refine not_escapes_safe hfields (by simp) (fun _ => not_escapes_requireString) fun _ => ?_
  exact not_escapes_safe hfields (by simp) (fun _ => not_escapes_requireString) fun _ =>
    not_escapes_pure

theorem not_escapes_eachItem {α : Type} {parse : Value → String → Except Raised α}
    {items : List Value} (hparse : ∀ value path, ¬Escapes Raised.IsContract (parse value path)) :
    ¬Escapes Raised.IsContract (eachItem parse path items) := by
  rw [eachItem,escapes_mapM]
  rintro ⟨_,a,_,_,_,h⟩
  exact hparse _ _ h

theorem not_escapes_requireConfidence :
    ¬Escapes Raised.IsContract (requireConfidence value path) := by
  cases value with
  | str confidence => exact not_escapes_bind not_escapes_check fun _ _ => not_escapes_pure
  | _ => simp [requireConfidence,Raised.IsContract]

theorem Finding.not_escapes_fromDict : ¬Escapes Raised.IsContract (fromDict value path) := by
  refine not_escapes_bind not_escapes_requireObject fun data _ => ?_
  refine not_escapes_bind not_escapes_requireExactFields fun _ hfields => ?_
  refine not_escapes_safe hfields (by simp) (fun _ => not_escapes_requireList) fun items => ?_
  refine not_escapes_bind (not_escapes_eachItem fun _ _ => Evidence.not_escapes_fromDict)
    fun _ _ => ?_
  refine not_escapes_bind not_escapes_check fun _ _ => ?_
  refine not_escapes_safe hfields (by simp) (fun _ => not_escapes_requireConfidence) fun _ => ?_
  exact not_escapes_safe hfields (by simp) (fun _ => not_escapes_requireString) fun _ =>
    not_escapes_pure

theorem not_escapes_stringArray : ¬Escapes Raised.IsContract (stringArray value path) :=
  not_escapes_bind not_escapes_requireList fun _ _ =>
    not_escapes_eachItem fun _ _ => not_escapes_requireString

theorem not_escapes_requireSourceId {isDigit : CodePoint → Bool} :
    ¬Escapes Raised.IsContract (requireSourceId isDigit value) :=
  not_escapes_bind not_escapes_requireString fun _ _ =>
    not_escapes_bind not_escapes_check fun _ _ => not_escapes_pure

theorem not_escapes_requireHttpStatus : ¬Escapes Raised.IsContract (requireHttpStatus value) := by
  cases value with
  | int status => exact not_escapes_bind not_escapes_check fun _ _ => not_escapes_pure
  | _ => simp [requireHttpStatus,Raised.IsContract]

theorem not_escapes_requireContentType : ¬Escapes Raised.IsContract (requireContentType value) :=
  not_escapes_bind not_escapes_requireString fun _ _ =>
    not_escapes_bind not_escapes_check fun _ _ => not_escapes_pure

/-! ## The validators that do -/

/-- The URL does not split, or it may be fetched and the format has no hash. -/
def WebFetchRequest.Uncaught (parsers : Parsers) (value : Value) : Prop :=
  ∃ data : Dict Str Value, value = .dict data ∧
    requireExactFields data [lit "url"] "request" [lit "format"] = .ok () ∧
    ∃ url, Reads data (lit "url") (requireString · "request.url" maxUrlChars false) url ∧
      (Unsplittable parsers.urlsplit url ∨ Fetchable parsers.urlsplit url ∧
        ∃ output, data.get (lit "format") = some output ∧ Unhashable output)

/-- The final URL does not split, or it and the fields up to the format are valid and the format
has no hash. -/
def WebFetchData.Uncaught (parsers : Parsers) (value : Value) : Prop :=
  ∃ data : Dict Str Value, value = .dict data ∧
    requireExactFields data fields "data" [] = .ok () ∧
    ∃ sourceId, Reads data (lit "source_id") (requireSourceId parsers.isDigit) sourceId ∧
      ((∃ url, Reads data (lit "final_url") (requireString · "data.final_url" maxUrlChars false)
          url ∧ Unsplittable parsers.urlsplit url) ∨
        ∃ finalUrl, Reads data (lit "final_url")
          (requireResultUrl parsers.urlsplit · "data.final_url") finalUrl ∧
        ∃ httpStatus, Reads data (lit "http_status") requireHttpStatus httpStatus ∧
        ∃ contentType, Reads data (lit "content_type") requireContentType contentType ∧
        ∃ retrievedAt, Reads data (lit "retrieved_at")
          (requireTimestamp parsers.fromisoformat · "data.retrieved_at" "RFC 3339") retrievedAt ∧
        ∃ output, data.get (lit "format") = some output ∧ Unhashable output)

/-- An envelope that is valid but for its payload. -/
def Envelope.Uncaught (parsers : Parsers) (value : Value) : Prop :=
  ∃ envelope, fromDict value toolKey Jobs.toolVersion none = .ok envelope ∧
    envelope.status = .ok ∧ WebFetchData.Uncaught parsers envelope.data.toDict

def Source.Uncaught (parsers : Parsers) (value : Value) (path : String) : Prop :=
  ∃ data : Dict Str Value, value = .dict data ∧
    requireExactFields data [lit "id",lit "url",lit "title",lit "retrieved_at"] path [] = .ok () ∧
    ∃ sourceId, Reads data (lit "id") (requireString · s!"{path}.id" 64 false) sourceId ∧
    ∃ url, Reads data (lit "url") (requireString · s!"{path}.url" maxUrlChars false) url ∧
      Unsplittable parsers.urlsplit url

/-- The findings and the sources up to one are valid, and the URL of that one does not split. -/
def WebResearchResult.Uncaught (parsers : Parsers) (value : Value) : Prop :=
  ∃ data : Dict Str Value, value = .dict data ∧
    requireExactFields data fields "result" [] = .ok () ∧
    ∃ items, Reads data (lit "findings") (requireList · "result.findings" maxFindings) items ∧
    (∃ findings, eachItem Finding.fromDict "result.findings" items = .ok findings) ∧
    ∃ sources, Reads data (lit "sources") (requireList · "result.sources" maxSources) sources ∧
    ∃ before given after, sources.zipIdx = before ++ given :: after ∧
      (∀ b ∈ before, ∃ source,
        Source.fromDict parsers b.1 s!"result.sources[{b.2}]" = .ok source) ∧
      Source.Uncaught parsers given.1 s!"result.sources[{given.2}]"

theorem WebFetchRequest.escapes_fromDict (hparsers : parsers.Documented) :
    Escapes Raised.IsContract (fromDict parsers.urlsplit value) ↔ Uncaught parsers value := by
  unfold fromDict Uncaught
  rw [escapes_object]
  refine exists_congr fun data => and_congr_right fun _ => and_congr_right fun hfields => ?_
  rw [escapes_safe hfields (by simp) fun _ => not_escapes_requireString]
  refine exists_congr fun url => and_congr_right fun hurl => ?_
  obtain ⟨_,_,hurl⟩ := hurl
  obtain ⟨raw,_,rfl,_⟩ := requireString_eq_ok.mp hurl
  simp only [escapes_bind,escapes_checkFetchable hparsers,checkFetchable_eq_ok,strip_strip,
    escapes_requireFormat,not_escapes_pure,and_false,exists_false,or_false,exists_const]
  cases Dict.get data (lit "format") <;> simp [Unhashable]

theorem escapes_requireResultUrl_field {data : Dict Str Value} {key : Str} :
    (∃ given, data.get key = some given ∧
      Escapes Raised.IsContract (requireResultUrl parsers.urlsplit given path)) ↔
      ∃ url, Reads data key (requireString · path maxUrlChars false) url ∧
        Unsplittable parsers.urlsplit url := by
  simp only [escapes_requireResultUrl,Reads]
  constructor
  · rintro ⟨given,hgiven,url,hurl,h⟩
    exact ⟨url,⟨given,hgiven,hurl⟩,h⟩
  · rintro ⟨url,⟨given,hgiven,hurl⟩,h⟩
    exact ⟨given,hgiven,url,hurl,h⟩

theorem WebFetchData.escapes_fromDict (hparsers : parsers.Documented) :
    Escapes Raised.IsContract (fromDict parsers value) ↔ Uncaught parsers value := by
  unfold fromDict Uncaught
  rw [escapes_object]
  refine exists_congr fun data => and_congr_right fun _ => and_congr_right fun hfields => ?_
  rw [escapes_safe hfields (by simp [fields]) fun _ => not_escapes_requireSourceId]
  refine exists_congr fun sourceId => and_congr_right fun _ => ?_
  rw [escapes_field hfields (by simp [fields]),escapes_requireResultUrl_field]
  refine or_congr_right (exists_congr fun finalUrl => and_congr_right fun _ => ?_)
  rw [escapes_safe hfields (by simp [fields]) fun _ => not_escapes_requireHttpStatus]
  refine exists_congr fun httpStatus => and_congr_right fun _ => ?_
  rw [escapes_safe hfields (by simp [fields]) fun _ => not_escapes_requireContentType]
  refine exists_congr fun contentType => and_congr_right fun _ => ?_
  rw [escapes_safe hfields (by simp [fields]) fun _ => not_escapes_requireTimestamp hparsers]
  refine exists_congr fun retrievedAt => and_congr_right fun _ => ?_
  rw [escapes_field hfields (by simp [fields])]
  simp only [escapes_requireFormat]
  refine or_iff_left ?_
  rintro ⟨output,_,h⟩
  refine absurd h (not_escapes_safe hfields (by simp [fields]) (fun _ => not_escapes_requireEnum)
    fun _ => ?_)
  refine not_escapes_safe hfields (by simp [fields]) (fun _ => not_escapes_requireString)
    fun _ => ?_
  exact not_escapes_bind not_escapes_check fun _ _ => not_escapes_pure

theorem Source.escapes_fromDict (hparsers : parsers.Documented) :
    Escapes Raised.IsContract (fromDict parsers value path) ↔ Uncaught parsers value path := by
  unfold fromDict Uncaught
  rw [escapes_object]
  refine exists_congr fun data => and_congr_right fun _ => and_congr_right fun hfields => ?_
  rw [escapes_safe hfields (by simp) fun _ => not_escapes_requireString]
  refine exists_congr fun sourceId => and_congr_right fun _ => ?_
  rw [escapes_field hfields (by simp),escapes_requireResultUrl_field]
  refine or_iff_left ?_
  rintro ⟨url,_,h⟩
  refine absurd h (not_escapes_safe hfields (by simp)
    (fun _ => not_escapes_requireTimestamp hparsers) fun _ => ?_)
  exact not_escapes_safe hfields (by simp) (fun _ => not_escapes_requireString) fun _ =>
    not_escapes_pure

theorem WebResearchResult.escapes_fromDict (hparsers : parsers.Documented) :
    Escapes Raised.IsContract (fromDict parsers value) ↔ Uncaught parsers value := by
  unfold fromDict Uncaught
  rw [escapes_object]
  refine exists_congr fun data => and_congr_right fun _ => and_congr_right fun hfields => ?_
  rw [escapes_safe hfields (by simp [fields]) fun _ => not_escapes_requireList]
  refine exists_congr fun items => and_congr_right fun _ => ?_
  rw [escapes_bind,or_iff_right (not_escapes_eachItem fun _ _ => Finding.not_escapes_fromDict),
    ← exists_and_right]
  refine exists_congr fun findings => and_congr_right fun _ => ?_
  rw [escapes_safe hfields (by simp [fields]) fun _ => not_escapes_requireList]
  refine exists_congr fun sources => and_congr_right fun _ => ?_
  rw [escapes_bind,or_iff_left]
  · rw [eachItem,escapes_mapM]
    exact exists_congr fun _ => exists_congr fun _ => exists_congr fun _ => and_congr_right fun _ =>
      and_congr_right fun _ => Source.escapes_fromDict hparsers
  · rintro ⟨found,_,h⟩
    refine absurd h (not_escapes_bind not_escapes_check fun _ _ => ?_)
    refine not_escapes_bind not_escapes_check fun _ _ => ?_
    refine not_escapes_safe hfields (by simp [fields]) (fun _ => not_escapes_stringArray) fun _ => ?_
    refine not_escapes_safe hfields (by simp [fields]) (fun _ => not_escapes_stringArray) fun _ => ?_
    exact not_escapes_safe hfields (by simp [fields]) (fun _ => not_escapes_requireString) fun _ =>
      not_escapes_pure

/-! ## The envelope runs the validator of its payload last -/

theorem not_escapes_requireInteger {message : Str} :
    ¬Escapes Raised.IsContract (Envelope.requireInteger value message) := by
  cases value <;> simp [Envelope.requireInteger,Raised.IsContract]

theorem Envelope.not_escapes_check (envelope : Envelope) :
    ¬Escapes Raised.IsContract (envelope.check none) := by
  unfold check checkOk checkFailure
  split_ifs
  · refine not_escapes_bind Jobs.not_escapes_check fun _ _ => ?_
    refine not_escapes_bind Jobs.not_escapes_check fun _ _ => ?_
    exact not_escapes_bind Jobs.not_escapes_check fun _ _ => not_escapes_ok
  · cases envelope.error with
    | none => simp [Raised.IsContract]
    | some error =>
      refine not_escapes_bind Jobs.not_escapes_check fun _ _ => ?_
      refine not_escapes_bind Jobs.not_escapes_check fun _ _ => ?_
      exact not_escapes_bind Jobs.not_escapes_check fun _ _ => Jobs.not_escapes_check

theorem Envelope.not_escapes_fromDict {tool : Str} {toolVersion : Int} :
    ¬Escapes Raised.IsContract (fromDict value tool toolVersion none) := by
  unfold fromDict
  rw [escapes_object]
  rintro ⟨data,_,hfields,h⟩
  revert h
  refine not_escapes_safe hfields (by simp [fields]) (fun _ => not_escapes_requireInteger)
    fun _ => ?_
  refine not_escapes_bind Jobs.not_escapes_check fun _ _ => ?_
  refine not_escapes_safe hfields (by simp [fields]) (fun _ => not_escapes_requireString)
    fun _ => ?_
  refine not_escapes_safe hfields (by simp [fields]) (fun _ => not_escapes_requireInteger)
    fun _ => ?_
  refine not_escapes_bind Jobs.not_escapes_check fun _ _ => ?_
  refine not_escapes_safe hfields (by simp [fields]) (fun _ => not_escapes_requireEnum) fun _ => ?_
  refine not_escapes_safe hfields (by simp [fields]) (fun _ => not_escapes_requireEnum) fun _ => ?_
  refine not_escapes_safe hfields (by simp [fields]) (fun _ => Inspection.not_escapes_fromDict)
    fun _ => ?_
  refine not_escapes_safe hfields (by simp [fields]) (fun given => ?_) fun _ => ?_
  · cases given with
    | none => exact not_escapes_ok
    | _ => exact not_escapes_bind EnvelopeError.not_escapes_fromDict fun _ _ => not_escapes_pure
  · refine not_escapes_bind (not_escapes_item hfields (by simp [fields])) fun _ _ => ?_
    exact not_escapes_bind (Envelope.not_escapes_check _) fun _ _ => not_escapes_pure

theorem escapes_map {α β : Type} {r : Except Raised α} {f : α → β} :
    Escapes Raised.IsContract (r.map f) ↔ Escapes Raised.IsContract r := by
  cases r <;> simp [Except.map]

theorem Envelope.escapes_validateEnvelope (hparsers : parsers.Documented) :
    Escapes Raised.IsContract (validateEnvelope parsers value) ↔ Uncaught parsers value := by
  unfold validateEnvelope Uncaught
  rw [fromDict_payload,escapes_bind,or_iff_right not_escapes_fromDict]
  refine exists_congr fun envelope => and_congr_right fun henvelope => ?_
  obtain ⟨data,_,hcarried⟩ := fromDict_eq_ok.mp henvelope
  obtain ⟨given,_,hgiven⟩ := hcarried.payload
  rw [escapes_bind,or_iff_left (by simp),runPayload,hgiven]
  split_ifs with hstatus
  · rw [WebFetchData.payload,escapes_map,WebFetchData.escapes_fromDict hparsers]
    exact ⟨fun h => ⟨hstatus,h⟩,fun h => h.2⟩
  · simp [hstatus]

/-! ## All contracts -/

inductive Contract
  | webFetchRequest
  | envelope
  | webResearchRequest
  | webResearchResult
  | gitChangeRequest
  | toolFailure

namespace Contract

/-- A validator, but for the value it returns. -/
def validate (parsers : Parsers) (value : Value) : Contract → Except Raised Unit
  | webFetchRequest => (WebFetchRequest.fromDict parsers.urlsplit value).map (fun _ => ())
  | envelope => (validateEnvelope parsers value).map (fun _ => ())
  | webResearchRequest => (WebResearchRequest.fromDict value).map (fun _ => ())
  | webResearchResult => (WebResearchResult.fromDict parsers value).map (fun _ => ())
  | gitChangeRequest => (GitChangeRequest.fromDict value).map (fun _ => ())
  | toolFailure => (ToolFailure.fromDict value).map (fun _ => ())

/-- The values for which a URL that does not split, or a format that has no hash, is reached. -/
def Uncaught (parsers : Parsers) (value : Value) : Contract → Prop
  | webFetchRequest => WebFetchRequest.Uncaught parsers value
  | envelope => Envelope.Uncaught parsers value
  | webResearchResult => WebResearchResult.Uncaught parsers value
  | webResearchRequest => False
  | gitChangeRequest => False
  | toolFailure => False

end Contract

theorem Contract.escapes_validate (hparsers : parsers.Documented) (contract : Contract) :
    Escapes Raised.IsContract (contract.validate parsers value) ↔
      contract.Uncaught parsers value := by
  cases contract with
  | webFetchRequest => exact escapes_map.trans (WebFetchRequest.escapes_fromDict hparsers)
  | envelope => exact escapes_map.trans (Envelope.escapes_validateEnvelope hparsers)
  | webResearchResult => exact escapes_map.trans (WebResearchResult.escapes_fromDict hparsers)
  | webResearchRequest =>
    exact escapes_map.trans (iff_of_false WebResearchRequest.not_escapes_fromDict id)
  | gitChangeRequest =>
    exact escapes_map.trans (iff_of_false GitChangeRequest.not_escapes_fromDict id)
  | toolFailure => exact escapes_map.trans (iff_of_false ToolFailure.not_escapes_fromDict id)

/-- The validator returns, or raises `ContractError`. -/
def Contract.FailsCleanly (parsers : Parsers) (value : Value) (contract : Contract) : Prop :=
  ∀ e, contract.validate parsers value = .error e → e.IsContract

/-- A validator fails with `ContractError` only, exactly when neither of the two is reached. -/
theorem failsCleanly_iff (hparsers : parsers.Documented) (contract : Contract) :
    contract.FailsCleanly parsers value ↔ ¬contract.Uncaught parsers value := by
  rw [← Contract.escapes_validate hparsers contract,Contract.FailsCleanly,Escapes]
  push Not
  rfl

end

/-- The library, on the URLs `https://example.com` and `https://[`. -/
def exampleParsers : Parsers where
  urlsplit text :=
    if text = lit "https://[" then .error .valueError
    else .ok ⟨lit "https",none,none,some (lit "example.com"),.ok none⟩
  fromisoformat _ := .ok ()
  isDigit c := 48 ≤ c.val && c.val ≤ 57

theorem exampleParsers_documented : exampleParsers.Documented where
  port {text parsed e} hparsed hport := by
    unfold exampleParsers at hparsed
    dsimp only at hparsed
    split_ifs at hparsed
    obtain rfl := Except.ok.inj hparsed
    cases hport
  timestamp h := by cases h

def unhashedFormat : Value :=
  .dict [(lit "url",.str (lit "https://example.com")),(lit "format",.list [])]

def openBracket : Value := .dict [(lit "url",.str (lit "https://["))]

def numberUrl : Value := .dict [(lit "url",.int 5)]

/-- The number is refused with `ContractError`, and reaches neither case; the bracket does. -/
theorem failsCleanly_number :
    Contract.webFetchRequest.validate exampleParsers numberUrl =
        .error (.contract (lit "request.url must be a string")) ∧
      ¬Contract.webFetchRequest.Uncaught exampleParsers numberUrl ∧
      Contract.webFetchRequest.Uncaught exampleParsers openBracket := by
  have hnumber : Contract.webFetchRequest.validate exampleParsers numberUrl =
    .error (.contract (lit "request.url must be a string")) := rfl
  refine ⟨hnumber,(failsCleanly_iff exampleParsers_documented _).mp fun e he => ?_,?_⟩
  · obtain rfl := Except.error.inj (hnumber.symm.trans he)
    trivial
  · by_contra h
    exact (failsCleanly_iff exampleParsers_documented .webFetchRequest).mpr h
      (.builtin .valueError) rfl

/-- A format that is a list raises `TypeError`, and an open bracket in the URL `ValueError`. -/
theorem not_failsCleanly : exampleParsers.Documented ∧
    ¬Contract.webFetchRequest.FailsCleanly exampleParsers unhashedFormat ∧
    ¬Contract.webFetchRequest.FailsCleanly exampleParsers openBracket :=
  ⟨exampleParsers_documented,fun h => h (.builtin .typeError) rfl,
    fun h => h (.builtin .valueError) rfl⟩

end HearthAI.Jobs
