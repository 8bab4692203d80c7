import HearthAI.Inspect.Entities
import HearthAI.Inspect.Members
import HearthAI.Inspect.Pipeline

/-! # The scan budget of a response that skips conversion

Eight inputs are scanned, and a quiet scanner leaves the outcome to their sizes: either all of
them fit in the budget, or one of them is refused.
-/
namespace HearthAI.Inspect
open Text Contracts Effect

/-- A supported response that is decoded and then returned as it is. -/
structure Direct (engine : Engine) where
  artifact : FetchArtifact
  media : MediaType
  body : Bytes
  decodedBytes : Bytes
  text : String
  media_eq : supportedMedia artifact = .ok media
  decoded_eq : decodeContentEncoding engine.codecs body artifact.contentEncoding = .ok decodedBytes
  text_eq : decodeCharset engine.codecs decodedBytes media = .ok text
  direct : artifact.format = .html ∨ media.isHtml = false

namespace Direct
variable {engine : Engine} (page : Direct engine)

/-- The fields of a result, as they are scanned together. -/
def together : String :=
  page.artifact.finalUrl ++ "\n" ++ page.media.headerValue ++ "\n" ++ page.text

/-- The inputs of the required scans, in their order. -/
def required : List Bytes :=
  [page.body,asBytes page.artifact.finalUrl,asBytes page.media.headerValue,asBytes page.text,
    asBytes (decodeEntities page.text),asBytes (deobfuscate (decodeEntities page.text)),
    asBytes page.text,asBytes page.together]

def total : ℕ := (page.required.map List.length).sum

/-- What else ends a run before its last scan: the clock, the size of the text, the timestamp. -/
def Excused (clock : ℕ → ℕ) (deadline : ℕ) : Prop :=
  (∃ n, deadline ≤ clock n) ∨ maxContentChars < page.text.length ∨
    ∀ retrievedAt, reformatted engine page.artifact.retrievedAt ≠ .ok retrievedAt

end Direct

/-- A scanner that never errors and has no rule that matches. -/
def Quiet (scanner : Scanner) : Prop := ∀ n data, scanner n data = .ok []

/-- Some input was refused for want of budget. -/
def Refused (events : List Event) : Prop :=
  ∃ data, Event.scan data (.error ⟨"scan input budget exhausted"⟩) ∈ events

/-- A session that has spent so much of its budget, and has had no input refused. -/
structure Spent (clock : ℕ → ℕ) (deadline spent : ℕ) (s : Inspection) : Prop where
  quiet : Quiet s.detector.scanner
  remaining : s.detector.remainingBytes + spent = maxScanInputBytes
  clean : ¬Refused s.events
  clock_eq : s.clock = clock
  deadline_eq : s.deadline = deadline

/-- A run that ends early: an input was refused, or it is excused. -/
def Ends (total : ℕ) (excused : Prop) (_ : Stop) (s : Inspection) : Prop :=
  Refused s.events ∧ maxScanInputBytes < total ∨ ¬Refused s.events ∧ excused

section
variable {clock : ℕ → ℕ} {deadline spent total : ℕ} {excused : Prop}

theorem refused_append {events : List Event} {data : Bytes}
    {answer : Except InspectionFailure Verdict} : Refused (events ++ [.scan data answer]) ↔
      Refused events ∨ answer = .error ⟨"scan input budget exhausted"⟩ := by
  unfold Refused
  constructor
  · rintro ⟨other,hmem⟩
    rcases List.mem_append.mp hmem with hmem | hmem
    · exact .inl ⟨other,hmem⟩
    · exact .inr (Event.scan.inj (List.mem_singleton.mp hmem)).2.symm
  · rintro (⟨other,hmem⟩ | rfl)
    · exact ⟨other,List.mem_append_left _ hmem⟩
    · exact ⟨data,List.mem_append_right _ (List.mem_singleton.mpr rfl)⟩

theorem detector_scan_quiet {detector : Detector} (hquiet : Quiet detector.scanner) (data : Bytes) :
    Detector.scan data detector =
      if detector.remainingBytes < data.length then
        (.error ⟨"scan input budget exhausted"⟩,detector)
      else (.ok .noMatch,
        ⟨detector.scanner,detector.remainingBytes - data.length,detector.scans + 1⟩) := by
  unfold Detector.scan
  rw [hquiet]
  rfl

/-- A scan spends its input, or is refused because the required ones do not fit. -/
theorem scan_spent (data : Bytes) (htotal : spent + data.length ≤ total) :
    Triple (Spent clock deadline spent) (scan data)
      (fun _ => Spent clock deadline (spent + data.length)) (Ends total excused) := by
  refine ⟨fun s hs => ?_⟩
  have hremaining := hs.remaining
  unfold scan
  rw [detector_scan_quiet hs.quiet]
  split_ifs with hroom
  · exact .inl ⟨refused_append.mpr (.inr rfl),by omega⟩
  · refine ⟨hs.quiet,?_,?_,hs.clock_eq,hs.deadline_eq⟩
    · dsimp only
      omega
    · exact refused_append.not.mpr (not_or.mpr ⟨hs.clean,nofun⟩)

theorem checkDeadline_spent (status : InspectionStatus)
    (hexcused : (∃ n, deadline ≤ clock n) → excused) :
    Triple (Spent clock deadline spent) (checkDeadline status)
      (fun _ => Spent clock deadline spent) (Ends total excused) := by
  refine ⟨fun s hs => ?_⟩
  have hafter : Spent clock deadline spent s.elapsed.2 :=
    ⟨hs.quiet,hs.remaining,hs.clean,hs.clock_eq,hs.deadline_eq⟩
  by_cases hlate : s.clock s.readings ≥ s.deadline
  · have hrun : checkDeadline status s = (.error ⟨.deadlineExceeded,status,[]⟩,s.elapsed.2) :=
      if_pos hlate
    rw [hrun]
    rw [hs.clock_eq,hs.deadline_eq] at hlate
    exact .inr ⟨hafter.clean,hexcused ⟨s.readings,hlate⟩⟩
  · have hrun : checkDeadline status s = (.ok (),s.elapsed.2) := if_neg hlate
    rw [hrun]
    exact hafter

theorem recordTelemetry_spent (f : Telemetry → Telemetry) {E : Stop → Inspection → Prop} :
    Triple (Spent clock deadline spent) (recordTelemetry f)
      (fun _ => Spent clock deadline spent) E :=
  Triple.modify _ fun _ hs => ⟨hs.quiet,hs.remaining,hs.clean,hs.clock_eq,hs.deadline_eq⟩

/-- A step that is known to succeed. -/
theorem lift_ok_bind {α β : Type} {r : Except Stop α} {a : α} {P : Inspection → Prop}
    {next : α → Session β} {Q : β → Inspection → Prop} {E : Stop → Inspection → Prop}
    (hr : r = .ok a) (hnext : Triple P (next a) Q E) :
    Triple P (Effect.lift r >>= next) Q E := by
  refine ⟨fun s hs => ?_⟩
  have hlift : (Effect.lift r : Session α) s = (.ok a,s) := by
    rw [hr]
    rfl
  rw [bind_ok hlift]
  exact hnext.exits s hs

end

section
variable {engine : Engine} {page : Direct engine} {clock : ℕ → ℕ} {deadline : ℕ}

theorem Direct.total_eq (page : Direct engine) : page.total =
    page.body.length + (asBytes page.artifact.finalUrl).length +
      (asBytes page.media.headerValue).length + (asBytes page.text).length +
      (asBytes (decodeEntities page.text)).length +
      (asBytes (deobfuscate (decodeEntities page.text))).length + (asBytes page.text).length +
      (asBytes page.together).length := by
  simp only [Direct.total,Direct.required,List.map_cons,List.map_nil,List.sum_cons,List.sum_nil]
  omega

abbrev Direct.Ends (page : Direct engine) (clock : ℕ → ℕ) (deadline : ℕ) :
    Stop → Inspection → Prop :=
  Inspect.Ends page.total (page.Excused clock deadline)

theorem openHanded_spent : Triple (Spent clock deadline 0)
    (Received.openHanded (.fetched page.artifact page.body))
    (fun received s => received = ⟨page.artifact,page.media,page.body⟩ ∧ Spent clock deadline 0 s)
    (page.Ends clock deadline) := by
  refine Triple.bind (recordTelemetry_spent _) fun _ => ?_
  exact lift_ok_bind page.media_eq (Triple.return _ fun _ hs => ⟨rfl,hs⟩)

theorem scanWire_spent : Triple (Spent clock deadline 0)
    (Received.scanWire engine ⟨page.artifact,page.media,page.body⟩)
    (fun decoded s => decoded = ⟨page.artifact,page.media,page.text⟩ ∧
      Spent clock deadline (0 + page.body.length + (asBytes page.artifact.finalUrl).length +
        (asBytes page.media.headerValue).length) s)
    (page.Ends clock deadline) := by
  have htotal := page.total_eq
  have hdecoded : (decodeContentEncoding engine.codecs page.body
      page.artifact.contentEncoding).mapError Stop.notRun = .ok page.decodedBytes := by
    rw [page.decoded_eq]
    rfl
  have htext : (decodeCharset engine.codecs page.decodedBytes page.media).mapError Stop.notRun =
      .ok page.text := by
    rw [page.text_eq]
    rfl
  unfold Received.scanWire
  dsimp only
  refine Triple.bind (checkDeadline_spent .notRun .inl) fun _ => ?_
  refine Triple.bind (scan_spent _ (by omega)) fun _ => ?_
  refine Triple.bind (scan_spent _ (by omega)) fun _ => ?_
  refine Triple.bind (scan_spent _ (by omega)) fun _ => ?_
  refine lift_ok_bind hdecoded (lift_ok_bind htext ?_)
  refine Triple.bind (recordTelemetry_spent _) fun _ => ?_
  exact Triple.return _ fun _ hs => ⟨rfl,hs⟩

/-- What the scans before the conversion spend. -/
def Direct.viewed (page : Direct engine) : ℕ :=
  0 + page.body.length + (asBytes page.artifact.finalUrl).length +
    (asBytes page.media.headerValue).length + (asBytes page.text).length +
    (asBytes (decodeEntities page.text)).length +
    (asBytes (deobfuscate (decodeEntities page.text))).length

theorem Direct.viewed_add (page : Direct engine) :
    page.viewed + (asBytes page.text).length + (asBytes page.together).length = page.total := by
  rw [page.total_eq,viewed]
  omega

theorem scanText_spent : Triple
    (Spent clock deadline (0 + page.body.length + (asBytes page.artifact.finalUrl).length +
      (asBytes page.media.headerValue).length))
    (Decoded.scanText ⟨page.artifact,page.media,page.text⟩)
    (fun normalized s => normalized = ⟨page.artifact,page.media,page.text⟩ ∧
      Spent clock deadline page.viewed s)
    (page.Ends clock deadline) := by
  have htotal := page.total_eq
  unfold Decoded.scanText
  dsimp only
  refine Triple.bind (checkDeadline_spent .failed .inl) fun _ => ?_
  refine Triple.bind (scan_spent _ (by omega)) fun _ => ?_
  refine Triple.bind (scan_spent _ (by omega)) fun _ => ?_
  refine Triple.bind (scan_spent _ (by omega)) fun _ => ?_
  exact Triple.return _ fun _ hs => ⟨rfl,hs⟩

theorem convert_spent (chain : List Converter) : Triple (Spent clock deadline page.viewed)
    (Normalized.convert engine chain ⟨page.artifact,page.media,page.text⟩)
    (fun inspected s => (∃ method, inspected = ⟨page.artifact,page.media,⟨page.text,method⟩⟩) ∧
      Spent clock deadline (page.viewed + (asBytes page.text).length) s)
    (page.Ends clock deadline) := by
  have htotal := page.viewed_add
  have hinspected : ∀ method, Triple (Spent clock deadline page.viewed)
      (Normalized.inspected ⟨page.artifact,page.media,page.text⟩ method)
      (fun inspected s => (∃ method, inspected = ⟨page.artifact,page.media,⟨page.text,method⟩⟩) ∧
        Spent clock deadline (page.viewed + (asBytes page.text).length) s)
      (page.Ends clock deadline) := by
    intro method
    unfold Normalized.inspected
    dsimp only
    refine Triple.bind (scan_spent _ (by omega)) fun _ => ?_
    exact Triple.return _ fun _ hs => ⟨⟨method,rfl⟩,hs⟩
  unfold Normalized.convert
  dsimp only
  by_cases hformat : page.artifact.format = .html
  · rw [if_pos hformat]
    exact hinspected .source
  · have hmedia : (!page.media.isHtml) = true := by
      rw [page.direct.resolve_left hformat]
      rfl
    rw [if_neg hformat,if_pos hmedia]
    exact hinspected .passthrough

theorem release_spent (method : ConversionMethod) :
    Triple (Spent clock deadline (page.viewed + (asBytes page.text).length))
      (Inspected.release engine ⟨page.artifact,page.media,⟨page.text,method⟩⟩)
      (fun _ => Spent clock deadline page.total) (page.Ends clock deadline) := by
  have htotal := page.viewed_add
  unfold Inspected.release
  dsimp only
  refine Triple.bind (M := fun _ => Spent clock deadline
    (page.viewed + (asBytes page.text).length)) ?_ fun _ => ?_
  · exact Triple.raiseIf _ _ (fun _ _ hs => hs)
      fun hlong _ hs => .inr ⟨hs.clean,.inr (.inl hlong)⟩
  refine Triple.bind (M := fun _ => Spent clock deadline
    (page.viewed + (asBytes page.text).length)) ?_ fun retrievedAt => ?_
  · refine Triple.lift (fun _ _ _ hs => hs) fun stop hstop _ hs => ?_
    refine .inr ⟨hs.clean,.inr (.inr fun retrievedAt hok => ?_)⟩
    rw [hok] at hstop
    cases hstop
  refine Triple.bind (checkDeadline_spent .failed .inl) fun _ => ?_
  refine Triple.bind (scan_spent (asBytes page.together) (by omega)) fun _ => ?_
  refine Triple.bind (recordTelemetry_spent _) fun _ => ?_
  exact Triple.return _ fun _ hs => page.viewed_add ▸ hs

/-- All inputs are scanned and fit, or the run ends with one refused, or it is excused. -/
theorem pipeline_spent (page : Direct engine) (chain : List Converter) :
    Triple (Spent clock deadline 0)
      (pipeline engine chain (.ok (.fetched page.artifact page.body)))
      (fun _ => Spent clock deadline page.total) (page.Ends clock deadline) := by
  unfold pipeline
  refine lift_ok_bind rfl ?_
  refine Triple.bind openHanded_spent fun _ => Triple.of_fact ?_
  rintro rfl
  refine Triple.bind scanWire_spent fun _ => Triple.of_fact ?_
  rintro rfl
  refine Triple.bind scanText_spent fun _ => Triple.of_fact ?_
  rintro rfl
  refine Triple.bind (convert_spent chain) fun _ => Triple.of_fact ?_
  rintro ⟨method,rfl⟩
  exact release_spent method

end
/-- Folding never takes more bytes. -/
theorem deobfuscateChar_size {c d : Char} (h : deobfuscateChar c = some d) :
    d.utf8Size ≤ c.utf8Size := by
  have hpos := c.utf8Size_pos
  have hsmall : ∀ e : Char, e.toNat ≤ 0x7f → e.utf8Size = 1 := by
    intro e he
    have hval : e.val ≤ 0x7f := UInt32.le_iff_toNat_le.mpr he
    exact if_pos hval
  have hmarks : ' '.utf8Size = 1 ∧ '\''.utf8Size = 1 ∧ '"'.utf8Size = 1 ∧ '-'.utf8Size = 1 :=
    ⟨rfl,rfl,rfl,rfl⟩
  unfold deobfuscateChar at h
  dsimp only at h
  split_ifs at h with _ hwide
  · have hd := hsmall d (by
      rw [charFromU32_eq_some.mp h]
      omega)
    omega
  all_goals
    obtain rfl := Option.some.inj h
    omega

theorem size_deobfuscate (text : List Char) : size (text.filterMap deobfuscateChar) ≤ size text := by
  induction text with
  | nil => exact Nat.le_refl 0
  | cons c text ih =>
    rw [size_cons]
    cases h : deobfuscateChar c with
    | none =>
      rw [List.filterMap_cons_none h]
      omega
    | some d =>
      have hd := deobfuscateChar_size h
      rw [List.filterMap_cons_some h,size_cons]
      omega

theorem length_asBytes (text : String) : (asBytes text).length = size text.toList := rfl

theorem length_decodeEntities (text : String) :
    (asBytes (decodeEntities text)).length ≤ (asBytes text).length := by
  rw [length_asBytes,length_asBytes,decodeEntities,String.toList_ofList]
  exact size_decodeReferences text.toList

theorem length_deobfuscate (text : String) :
    (asBytes (deobfuscate text)).length ≤ (asBytes text).length := by
  rw [length_asBytes,length_asBytes,deobfuscate,String.toList_ofList]
  exact size_deobfuscate text.toList

theorem supported_media {artifact : FetchArtifact} {media : MediaType}
    (h : supportedMedia artifact = .ok media) : media.isSupported = true := by
  unfold supportedMedia at h
  split at h
  · cases h
  · split at h
    · cases h
    · split_ifs at h with hsupported
      rw [← Except.ok.inj h]
      exact hsupported

theorem length_headerValue {media : MediaType} (h : media.isSupported = true) :
    (asBytes media.headerValue).length ≤ 64 := by
  obtain ⟨essence,charset⟩ := media
  obtain ⟨hessence,hcharset⟩ := Bool.and_eq_true_iff.mp h
  have hessences : supportedMediaTypes.all (fun e => len e ≤ 21) = true := by decide
  have hcharsets : supportedCharsets.all (fun c => len c ≤ 12) = true := by decide
  have hessence' : len essence ≤ 21 :=
    of_decide_eq_true (List.all_eq_true.mp hessences essence (by simpa using hessence))
  cases charset with
  | none => exact Nat.le_trans hessence' (by decide)
  | some charset =>
    have hcharset' : len charset ≤ 12 :=
      of_decide_eq_true (List.all_eq_true.mp hcharsets charset (by simpa using hcharset))
    have hlabel : (asBytes "; charset=").length = 10 := by decide
    show (asBytes (essence ++ "; charset=" ++ charset)).length ≤ 64
    rw [asBytes_append (essence ++ "; charset=") charset,asBytes_append essence "; charset=",
      List.length_append,List.length_append]
    unfold len at hessence' hcharset'
    omega

section
variable {engine : Engine} (page : Direct engine)

theorem Direct.length_together : (asBytes page.together).length =
    (asBytes page.artifact.finalUrl).length + (asBytes page.media.headerValue).length +
      (asBytes page.text).length + 2 := by
  have hbreak : (asBytes "\n").length = 1 := rfl
  rw [together,asBytes_append (page.artifact.finalUrl ++ "\n" ++ page.media.headerValue ++ "\n"),
    asBytes_append (page.artifact.finalUrl ++ "\n" ++ page.media.headerValue) "\n",
    asBytes_append (page.artifact.finalUrl ++ "\n") page.media.headerValue,
    asBytes_append page.artifact.finalUrl "\n"]
  simp only [List.length_append]
  omega

/-- A text that is no longer than its bytes may be fits. -/
theorem Direct.total_le (hbody : page.body.length ≤ maxWireBytes)
    (hurl : (asBytes page.artifact.finalUrl).length ≤ maxUrlChars)
    (htext : (asBytes page.text).length ≤ maxDecodedBytes) :
    page.total ≤ maxScanInputBytes := by
  have hheader := length_headerValue (supported_media page.media_eq)
  have hentities := length_decodeEntities page.text
  have hfolded := length_deobfuscate (decodeEntities page.text)
  have hlimits : maxWireBytes = 1048576 ∧ maxUrlChars = 2048 ∧ maxDecodedBytes = 1048576 ∧
      maxScanInputBytes = 8388608 := by decide
  rw [page.total_eq,page.length_together]
  omega

/-- Under a quiet scanner no input is refused when all of them fit, and a run that nothing else
ends refuses none only then. A text of at most a decoded body's bytes always fits. -/
theorem budget_suffices_iff (chain : List Converter) {bundle : RuleBundle}
    (hquiet : Quiet bundle.rules) (clock : ℕ → ℕ) (deadline : ℕ) :
    (page.total ≤ maxScanInputBytes →
        ¬Refused (pipeline engine chain (.ok (.fetched page.artifact page.body))
          (.new bundle.detector clock deadline)).2.events) ∧
      (¬page.Excused clock deadline →
        (¬Refused (pipeline engine chain (.ok (.fetched page.artifact page.body))
          (.new bundle.detector clock deadline)).2.events ↔ page.total ≤ maxScanInputBytes)) ∧
      (page.body.length ≤ maxWireBytes →
        (asBytes page.artifact.finalUrl).length ≤ maxUrlChars →
          (asBytes page.text).length ≤ maxDecodedBytes → page.total ≤ maxScanInputBytes) := by
  have hstart : Spent clock deadline 0 (.new bundle.detector clock deadline) :=
    ⟨hquiet,rfl,fun ⟨_,h⟩ => absurd h List.not_mem_nil,rfl,rfl⟩
  have hexit := (pipeline_spent page chain).exits _ hstart
  generalize pipeline engine chain (.ok (.fetched page.artifact page.body))
    (.new bundle.detector clock deadline) = run at hexit ⊢
  obtain ⟨stop | data,s⟩ := run
  · refine ⟨fun hfits => ?_,fun hexcused => ?_,page.total_le⟩
    · rcases hexit with ⟨_,hover⟩ | ⟨hclean,_⟩
      · omega
      · exact hclean
    · rcases hexit with ⟨hrefused,hover⟩ | ⟨_,h⟩
      · exact iff_of_false (fun h => h hrefused) (by omega)
      · exact absurd h hexcused
  · have hspent : Spent clock deadline page.total s := hexit
    have hremaining := hspent.remaining
    exact ⟨fun _ => hspent.clean,fun _ => iff_of_true hspent.clean (by omega),page.total_le⟩

end
/-- Decoders for `UTF-8`, and for the letters of `windows-1252` from the upper half on. -/
def latinEngine : Engine where
  codecs :=
    { gzip := fun _ => ⟨[],true⟩
      zlib := fun _ => ⟨[],true⟩
      forBom := fun _ => none
      forLabel := fun label =>
        if label = "utf-8" then some "UTF-8"
        else if label = "windows-1252" then some "windows-1252"
        else none
      decodeWithoutBomHandling := fun _ _ => ("",true)
      decodeWithoutReplacement := fun encoding bytes =>
        if encoding = "windows-1252" then
          some (String.ofList (bytes.map fun byte => Char.ofNat byte.toNat))
        else fromUtf8 bytes }
  urls := ⟨fun _ => .error "",fun _ _ => .error "",fun _ => ""⟩
  times :=
    { parseRfc3339 := fun text => if text = "2026-10-01T12:00:00Z" then some ⟨0,0⟩ else none
      formatRfc3339 := fun _ => some "2026-10-01T12:00:00Z" }
  isAlphanumeric := Char.isAlphanum

def plainArtifact (contentType : String) (bodyBytes : ℕ) : FetchArtifact :=
  ⟨1,"run-1","source-1","","http://example.com/",200,some contentType,none,0,
    "2026-10-01T12:00:00Z",.text,bodyBytes,"","production"⟩

def silentBundle : RuleBundle := ⟨"web-content-v1","",1,fun _ _ => .ok []⟩

theorem identity_decoded {codecs : Codecs} {body : Bytes} (h : body.length ≤ maxDecodedBytes) :
    decodeContentEncoding codecs body none = .ok body := by
  have hcoding : Coding.of none = .identity := by decide
  rw [decodeContentEncoding_eq,hcoding]
  exact if_neg (Nat.not_lt.mpr h)

/-- A page of accented letters, one byte each, that take two bytes each once decoded. -/
def accentPage (n : ℕ) (h : n ≤ maxDecodedBytes) : Direct latinEngine where
  artifact := plainArtifact "text/plain; charset=windows-1252" n
  media := ⟨"text/plain",some "windows-1252"⟩
  body := List.replicate n 0xe9
  decodedBytes := List.replicate n 0xe9
  text := String.ofList (List.replicate n 'é')
  media_eq := by
    have hmedia : supportedMedia (plainArtifact "text/plain; charset=windows-1252" 0) =
        .ok ⟨"text/plain",some "windows-1252"⟩ := by decide
    exact hmedia
  decoded_eq := identity_decoded (by rwa [List.length_replicate])
  text_eq := by
    have hmap : (List.replicate n (0xe9 : UInt8)).map (fun byte => Char.ofNat byte.toNat) =
        List.replicate n 'é' := List.map_replicate
    show Except.ok (String.ofList _) = _
    rw [hmap]
  direct := .inr (by decide)

theorem size_replicate (n : ℕ) (c : Char) : size (List.replicate n c) = n * c.utf8Size := by
  induction n with
  | zero => rw [Nat.zero_mul]; rfl
  | succ n ih =>
    rw [List.replicate_succ,size_cons,ih,Nat.succ_mul]
    omega

/-- Each letter is scanned eleven times over, next to the URL and the media type. -/
theorem accentPage_total (n : ℕ) (h : n ≤ maxDecodedBytes) :
    (accentPage n h).total = 11 * n + 104 := by
  have htext : (asBytes (accentPage n h).text).length = n * 2 := by
    rw [length_asBytes]
    show size (String.ofList (List.replicate n 'é')).toList = _
    rw [String.toList_ofList,size_replicate]
    rfl
  have hentities : decodeEntities (accentPage n h).text = (accentPage n h).text := by
    show String.ofList (decodeReferences (String.ofList (List.replicate n 'é')).toList) = _
    have hplain : '&' ∉ List.replicate n 'é' := fun hmem =>
      absurd (List.eq_of_mem_replicate hmem) (by decide)
    rw [String.toList_ofList,decodeReferences_plain hplain]
    rfl
  have hfolded : deobfuscate (accentPage n h).text = (accentPage n h).text := by
    show String.ofList ((String.ofList (List.replicate n 'é')).toList.filterMap _) = _
    rw [String.toList_ofList,List.filterMap_replicate]
    rfl
  have hbody : (accentPage n h).body.length = n := List.length_replicate
  have hurl : (asBytes (accentPage n h).artifact.finalUrl).length = 19 := by
    show (asBytes "http://example.com/").length = 19
    decide
  have hheader : (asBytes (accentPage n h).media.headerValue).length = 32 := by
    show (asBytes (⟨"text/plain",some "windows-1252"⟩ : MediaType).headerValue).length = 32
    decide
  have htotal := (accentPage n h).total_eq
  have htogether := (accentPage n h).length_together
  rw [hentities,hfolded] at htotal
  omega

/-- A page of one byte to a letter that leaves three bytes of the budget. -/
theorem budget_suffices_page : ∃ page : Direct latinEngine, page.total + 3 = maxScanInputBytes ∧
    ¬Refused (pipeline latinEngine [] (.ok (.fetched page.artifact page.body))
      (.new silentBundle.detector (fun _ => 0) 1)).2.events := by
  have hdecoded : 762591 ≤ maxDecodedBytes := by decide
  have htotal : (accentPage 762591 hdecoded).total + 3 = maxScanInputBytes := by
    rw [accentPage_total]
    decide
  exact ⟨accentPage 762591 hdecoded,htotal,
    (budget_suffices_iff (accentPage 762591 hdecoded) [] (fun _ _ => rfl) (fun _ => 0) 1).1
      (Nat.le.intro htotal)⟩

theorem accentPage_unexcused (n : ℕ) (h : n ≤ maxDecodedBytes) :
    ¬(accentPage n h).Excused (fun _ => 0) 1 := by
  rintro (⟨_,hlate⟩ | hlong | hstamp)
  · exact Nat.not_succ_le_zero 0 hlate
  · have hlength : (accentPage n h).text.length = n := by
      show (String.ofList (List.replicate n 'é')).length = n
      rw [String.length_ofList,List.length_replicate]
    have hlimits : maxContentChars = maxDecodedBytes := rfl
    omega
  · exact hstamp "2026-10-01T12:00:00Z" rfl

theorem accentPage_refused (n : ℕ) (h : n ≤ maxDecodedBytes) (hover : maxScanInputBytes < 11 * n + 104) :
    Refused (pipeline latinEngine [] (.ok (.fetched (accentPage n h).artifact (accentPage n h).body))
      (.new silentBundle.detector (fun _ => 0) 1)).2.events := by
  have hstart : Spent (fun _ => 0) 1 0 (.new silentBundle.detector (fun _ => 0) 1) :=
    ⟨fun _ _ => rfl,rfl,fun ⟨_,h⟩ => absurd h List.not_mem_nil,rfl,rfl⟩
  have hexit := (pipeline_spent (accentPage n h) []).exits _ hstart
  have htotal := accentPage_total n h
  generalize pipeline latinEngine []
    (.ok (.fetched (accentPage n h).artifact (accentPage n h).body))
    (.new silentBundle.detector (fun _ => 0) 1) = run at hexit ⊢
  obtain ⟨stop | data,s⟩ := run
  · rcases hexit with ⟨hrefused,_⟩ | ⟨_,hexcused⟩
    · exact hrefused
    · exact absurd hexcused (accentPage_unexcused n h)
  · have hspent : Spent (fun _ => 0) 1 (accentPage n h).total s := hexit
    have hremaining := hspent.remaining
    omega

/-- A page of accented letters inside the body limits runs out of budget. -/
theorem budget_exhausted : ∃ page : Direct latinEngine,
    page.body.length = maxWireBytes ∧ (asBytes page.artifact.finalUrl).length ≤ maxUrlChars ∧
      Quiet silentBundle.rules ∧
      Refused (pipeline latinEngine [] (.ok (.fetched page.artifact page.body))
        (.new silentBundle.detector (fun _ => 0) 1)).2.events := by
  have hurl : (asBytes "http://example.com/").length ≤ maxUrlChars := by decide
  exact ⟨accentPage maxWireBytes (Nat.le_refl _),List.length_replicate,hurl,fun _ _ => rfl,
    accentPage_refused maxWireBytes (Nat.le_refl _) (by decide)⟩

end HearthAI.Inspect
