import HearthAI.Stages.Wire

/-! # The two sides that admit a request

The rules are written twice. The Rust decoder takes more forms of a request, and the
control plane measures the URL in another way.
-/
namespace HearthAI.Stages
open Text Python Contracts

/-- Both sides see the same components, and the Rust side leaves a default port out. -/
def Shown (split : Except Builtin Jobs.SplitResult) : Except String Url → Prop
  | .error _ => ¬∃ parsed port, split = .ok parsed ∧ parsed.port = .ok port
  | .ok url => ∃ parsed port, split = .ok parsed ∧ parsed.port = .ok port ∧
      parsed.scheme = lit url.scheme ∧ parsed.username.getD [] = lit url.username ∧
      parsed.password = url.password.map lit ∧ parsed.hostname = url.hostStr.map lit ∧
      (port = url.port ∨ url.port = none ∧ port = url.portOrKnownDefault)

/-- The two URL parsers are one oracle on what is left of a text without the white space
around it. -/
structure SharedOracle (urlsplit : Jobs.UrlSplit) (urls : UrlCrate) : Prop where
  shown : ∀ raw text, Denotes raw text → Shown (urlsplit (strip raw)) (urls.parse (trim text))

/-- An empty password counts as none on the Python side. -/
def dropEmptyPassword (url : Url) : Url :=
  { url with password := url.password.filter (· ≠ "") }

/-- The Rust side takes this text for a URL that may be fetched. -/
def Takes (urls : UrlCrate) (text : String) : Prop :=
  len text ≤ Contracts.maxUrlChars ∧
    ∃ url, urls.parse (trim text) = .ok url ∧ checkFetchable url = .ok ()

/-- The keys of a request. -/
def Known (data : Dict Str Value) : Prop :=
  ∀ key ∈ data.map Prod.fst, key = lit "url" ∨ key = lit "format"

/-- The format is left out, or named. -/
def NamesFormat (shown : Option Value) : Prop :=
  ∀ value ∈ shown, ∃ format : Format, value = .str (lit format.name)

/-- The forms of a request that only the derived decoder knows. -/
inductive Lenient (urls : UrlCrate) : Value → Prop
  | array {raw : Str} {text : String} {shown : Option Value} {format : Format}
      (hraw : Denotes raw text) (htext : Takes urls text) (hformat : ShowsFormat shown format) :
      Lenient urls (.list (.str raw :: shown.toList))
  | variant {data : Dict Str Value} {raw : Str} {text : String} {format : Format}
      (hknown : Known data) (hurl : data.get (lit "url") = some (.str raw))
      (hraw : Denotes raw text) (htext : Takes urls text)
      (hformat : data.get (lit "format") = some (.dict [(lit format.name,.none)])) :
      Lenient urls (.dict data)

/-- What the control plane asks of a payload. -/
structure Admissible (urlsplit : Jobs.UrlSplit) (data : Dict Str Value) (raw : Str) : Prop where
  known : Known data
  url : data.get (lit "url") = some (.str raw)
  format : NamesFormat (data.get (lit "format"))
  nonempty : strip raw ≠ []
  short : (strip raw).length ≤ Jobs.maxUrlChars
  fetchable : Jobs.Fetchable urlsplit (strip raw)

/-- The URL has no text in Unicode, is too long in bytes, or has an empty password. -/
def Unfit (urls : UrlCrate) (raw : Str) : Prop :=
  ∀ text, Denotes raw text → len text > Contracts.maxUrlChars ∨
    ∃ url, urls.parse (trim text) = .ok url ∧ url.password = some ""

/-- The requests that pass the checks of the control plane only. -/
inductive Overlooked (urlsplit : Jobs.UrlSplit) (urls : UrlCrate) : Value → Prop
  | request {data : Dict Str Value} {raw : Str} (hadmissible : Admissible urlsplit data raw)
      (hunfit : Unfit urls raw) : Overlooked urlsplit urls (.dict data)

/-- The sides admit the same requests, and what the control plane admits can be fetched. -/
def Agree (serde : SerdeJson) (dumps : Value → String) (urlsplit : Jobs.UrlSplit)
    (urls : UrlCrate) (value : Value) : Prop :=
  ((∃ request, Jobs.WebFetchRequest.fromDict urlsplit value = .ok request) ↔
      ∃ request, WebFetchRequest.fromJson serde urls (dumps value) = .ok request) ∧
    ∀ request, Jobs.WebFetchRequest.fromDict urlsplit value = .ok request →
      ∃ fetchRequest destination,
        WebFetchRequest.fromStr serde (dumps request.toDict) = .ok fetchRequest ∧
        fetchRequest.destinationUrl urls = .ok destination

section
variable {serde : SerdeJson} {dumps : Value → String} {readFloat : Str → Option Double}
  {urlsplit : Jobs.UrlSplit} {urls : UrlCrate} {value : Value} {raw : Str} {text : String}

theorem present_map_lit {o : Option String} :
    Jobs.present (o.map lit) = true ↔ ∃ s, o = some s ∧ s ≠ "" := by
  cases o with
  | none => simp [Jobs.present]
  | some s => simp [Jobs.present,lit_eq_nil]

theorem present_eq_false {o : Option Str} : Jobs.present o = false ↔ o.getD [] = [] := by
  cases o with
  | none => simp [Jobs.present]
  | some s => simp [Jobs.present]

theorem present_password {o : Option String} :
    Jobs.present (o.map lit) = false ↔ o.filter (· ≠ "") = none := by
  cases o with
  | none => simp [Jobs.present]
  | some s => simp [Jobs.present,lit_eq_nil]

theorem scheme_iff {scheme : String} :
    lit scheme = lit "http" ∨ lit scheme = lit "https" ↔ scheme = "http" ∨ scheme = "https" := by
  rw [lit_injective.eq_iff,lit_injective.eq_iff]

/-- A port that one side leaves out is a web port. -/
theorem webPorts_iff {url : Url} {port : Option ℕ}
    (hscheme : url.scheme = "http" ∨ url.scheme = "https")
    (hport : port = url.port ∨ url.port = none ∧ port = url.portOrKnownDefault) :
    (∀ p ∈ port, p = 80 ∨ p = 443) ↔ ∀ p ∈ url.port, p = 80 ∨ p = 443 := by
  rcases hport with rfl | ⟨hnone,rfl⟩
  · rfl
  · unfold Url.portOrKnownDefault
    rcases hscheme with hscheme | hscheme
    · simp [hnone,hscheme]
    · simp [hnone,hscheme]

/-- What `urlsplit` must show is what the Rust side checks, up to an empty password. -/
theorem fetchable_iff (hshared : SharedOracle urlsplit urls) (hraw : Denotes raw text) :
    Jobs.Fetchable urlsplit (strip raw) ↔
      ∃ url, urls.parse (trim text) = .ok url ∧ checkFetchable (dropEmptyPassword url) = .ok () := by
  have hshown := hshared.shown raw text hraw
  cases hparse : urls.parse (trim text) with
  | error e =>
    rw [hparse] at hshown
    refine iff_of_false ?_ (by simp)
    rintro ⟨parsed,port,hsplit,_,_,_,hport,_⟩
    exact hshown ⟨parsed,port,hsplit,hport⟩
  | ok url =>
    rw [hparse] at hshown
    obtain ⟨parsed,port,hsplit,hport,hscheme,huser,hpassword,hhost,hports⟩ := hshown
    have hfetchable : Jobs.Fetchable urlsplit (strip raw) ↔
        (parsed.scheme = lit "http" ∨ parsed.scheme = lit "https") ∧
          (Jobs.present parsed.username = false ∧ Jobs.present parsed.password = false) ∧
          Jobs.present parsed.hostname = true ∧ ∀ p ∈ port, p = 80 ∨ p = 443 := by
      unfold Jobs.Fetchable
      rw [hsplit]
      constructor
      · rintro ⟨parsed',port',hsplit',hscheme',huser',hhost',hport',hweb⟩
        obtain rfl := Except.ok.inj hsplit'
        rw [hport] at hport'
        obtain rfl := Except.ok.inj hport'
        exact ⟨hscheme',huser',hhost',hweb⟩
      · rintro ⟨hscheme',huser',hhost',hweb⟩
        exact ⟨parsed,port,rfl,hscheme',huser',hhost',hport,hweb⟩
    rw [hfetchable,hscheme,scheme_iff,present_eq_false,huser,lit_eq_nil,hpassword,
      present_password,hhost,present_map_lit]
    simp only [Except.ok.injEq,exists_eq_left',checkFetchable_eq_ok,checkDestination_eq_ok,
      dropEmptyPassword]
    constructor
    · rintro ⟨hweb,⟨hname,hfilter⟩,hname',hp⟩
      exact ⟨⟨hweb,hname,hfilter,hname'⟩,(webPorts_iff hweb hports).mp hp⟩
    · rintro ⟨⟨hweb,hname,hfilter,hname'⟩,hp⟩
      exact ⟨hweb,⟨hname,hfilter⟩,hname',(webPorts_iff hweb hports).mpr hp⟩

/-- What is left of a text without the white space around it, on the Python side. -/
def stripText (text : String) : String :=
  String.ofList (trimMatches (fun c => isSpace (ofChar c)) text.toList)

theorem strip_lit (text : String) : strip (lit text) = lit (stripText text) := by
  unfold strip lit stripText trimMatches
  simp only [String.toList_ofList,List.dropWhile_map,Function.comp_def,
    ← List.map_reverse]

theorem denotes_strip (h : Denotes raw text) : Denotes (strip raw) (stripText text) :=
  h.strip.trans (congrArg utf16 (strip_lit text))

theorem trimMatches_sublist {α : Type} (p : α → Bool) (l : List α) :
    (trimMatches p l).Sublist l := by
  have hright : ((l.dropWhile p).reverse.dropWhile p).Sublist (l.dropWhile p).reverse :=
    (List.dropWhile_suffix p).sublist
  have hboth := hright.reverse
  rw [List.reverse_reverse] at hboth
  exact hboth.trans (List.dropWhile_suffix p).sublist

theorem len_stripText (text : String) : len (stripText text) ≤ len text := by
  unfold len asBytes stripText
  rw [String.toList_ofList]
  generalize text.toList = chars
  have hsublist := trimMatches_sublist (fun c => isSpace (ofChar c)) chars
  generalize trimMatches (fun c => isSpace (ofChar c)) chars = rest at hsublist
  induction hsublist with
  | slnil => exact Nat.le_refl _
  | cons c _ ih =>
    rw [List.flatMap_cons,List.length_append]
    omega
  | cons_cons c _ ih =>
    rw [List.flatMap_cons,List.flatMap_cons,List.length_append,List.length_append]
    omega

/-- A text has no more code points than bytes. -/
theorem length_lit_le (text : String) : (lit text).length ≤ len text := by
  unfold lit len asBytes
  rw [List.length_map]
  induction text.toList with
  | nil => exact Nat.le_refl _
  | cons c chars ih =>
    have hpos := List.length_pos_iff.mpr (String.utf8EncodeChar_ne_nil (c := c))
    rw [List.flatMap_cons,List.length_append,List.length_cons]
    omega

theorem mem_formats {name : Str} : name ∈ Jobs.formats ↔ ∃ format : Format, name = lit format.name := by
  simp only [Jobs.formats,List.mem_cons,List.not_mem_nil,or_false]
  constructor
  · rintro (rfl | rfl | rfl)
    · exact ⟨.markdown,rfl⟩
    · exact ⟨.text,rfl⟩
    · exact ⟨.html,rfl⟩
  · rintro ⟨format,rfl⟩
    cases format with
    | markdown => exact .inl rfl
    | text => exact .inr (.inl rfl)
    | html => exact .inr (.inr rfl)

theorem namesFormat_iff {shown : Option Value} : NamesFormat shown ↔
    ∃ name, shown.getD (.str (lit "markdown")) = .str name ∧ name ∈ Jobs.formats := by
  cases shown with
  | none => exact iff_of_true nofun ⟨_,rfl,mem_formats.mpr ⟨.markdown,rfl⟩⟩
  | some value =>
    constructor
    · intro h
      obtain ⟨format,rfl⟩ := h value rfl
      exact ⟨_,rfl,mem_formats.mpr ⟨format,rfl⟩⟩
    · rintro ⟨name,hname,hmem⟩ value' hvalue
      obtain rfl : value' = .str name := (Option.some.inj hvalue).symm.trans hname
      obtain ⟨format,rfl⟩ := mem_formats.mp hmem
      exact ⟨format,rfl⟩

theorem fromDict_iff : (∃ request, Jobs.WebFetchRequest.fromDict urlsplit value = .ok request) ↔
    ∃ data raw, value = .dict data ∧ Admissible urlsplit data raw := by
  constructor
  · rintro ⟨request,hrequest⟩
    obtain ⟨data,raw,hdata,h⟩ := Jobs.fromDict_eq_ok.mp hrequest
    refine ⟨data,raw,hdata,h.known,h.given,?_,?_,?_,?_⟩
    · exact namesFormat_iff.mpr ⟨request.format,h.format,h.named⟩
    · exact h.url ▸ h.nonempty
    · exact h.url ▸ h.short
    · exact h.url ▸ h.fetchable
  · rintro ⟨data,raw,hdata,h⟩
    obtain ⟨name,hname,hmem⟩ := namesFormat_iff.mp h.format
    exact ⟨⟨strip raw,name⟩,Jobs.fromDict_eq_ok.mpr ⟨data,raw,hdata,h.known,h.url,rfl,h.nonempty,
      h.short,h.fetchable,hname,hmem⟩⟩

/-- What the Rust side asks of a payload. -/
theorem fromJson_iff (hreads : Reads serde dumps readFloat value) :
    (∃ request, WebFetchRequest.fromJson serde urls (dumps value) = .ok request) ↔
      ∃ request : WebFetchRequest, (∃ v, value.document readFloat maxDepth = some v ∧
        WebFetchRequest.ofValue v = some request) ∧ Takes urls request.url := by
  unfold WebFetchRequest.fromJson
  constructor
  · rintro ⟨request,h⟩
    obtain ⟨request',hfromStr,h⟩ := bind_eq_ok.mp h
    obtain ⟨destination,hdestination,_⟩ := bind_eq_ok.mp h
    obtain ⟨v,hv,hvalue⟩ := fromStr_eq_ok.mp hfromStr
    exact ⟨request',⟨v,hreads.symm.trans hv,hvalue⟩,validatedUrl_eq_ok.mp ⟨destination,hdestination⟩⟩
  · rintro ⟨request,⟨v,hv,hvalue⟩,htakes⟩
    obtain ⟨destination,hdestination⟩ := validatedUrl_eq_ok.mpr htakes
    exact ⟨request,bind_eq_ok.mpr ⟨request,fromStr_eq_ok.mpr ⟨v,hreads.trans hv,hvalue⟩,
      bind_eq_ok.mpr ⟨destination,hdestination,rfl⟩⟩⟩

theorem dropEmptyPassword_eq {url : Url} (h : url.password ≠ some "") :
    dropEmptyPassword url = url := by
  have hfilter : url.password.filter (· ≠ "") = url.password := by
    cases hpassword : url.password with
    | none => rfl
    | some password =>
      rw [hpassword] at h
      exact Option.filter_some_pos (by simpa using h)
  rw [dropEmptyPassword,hfilter]

theorem not_unfit (h : ¬Unfit urls raw) : ∃ text, Denotes raw text ∧
    len text ≤ Contracts.maxUrlChars ∧
      ∀ url, urls.parse (trim text) = .ok url → url.password ≠ some "" := by
  unfold Unfit at h
  push Not at h
  obtain ⟨text,hraw,hlen,hpassword⟩ := h
  exact ⟨text,hraw,hlen,hpassword⟩

/-- The Rust side takes an admissible URL that is fit. -/
theorem takes_of_fetchable (hshared : SharedOracle urlsplit urls) (hraw : Denotes raw text)
    (h : Jobs.Fetchable urlsplit (strip raw)) (hlen : len text ≤ Contracts.maxUrlChars)
    (hpassword : ∀ url, urls.parse (trim text) = .ok url → url.password ≠ some "") :
    Takes urls text := by
  obtain ⟨url,hparse,hfetchable⟩ := (fetchable_iff hshared hraw).mp h
  rw [dropEmptyPassword_eq (hpassword url hparse)] at hfetchable
  exact ⟨hlen,url,hparse,hfetchable⟩

/-- What the Rust side takes for a URL, the control plane does too. -/
theorem admissible_of_takes (hshared : SharedOracle urlsplit urls)
    (hempty : ∀ url, urls.parse "" ≠ .ok url) {data : Dict Str Value} (hknown : Known data)
    (hurl : data.get (lit "url") = some (.str raw)) (hraw : Denotes raw text)
    (hformat : NamesFormat (data.get (lit "format"))) (htakes : Takes urls text) :
    Admissible urlsplit data raw := by
  obtain ⟨hlen,url,hparse,hcheck⟩ := htakes
  have hpassword : url.password = none :=
    (checkDestination_eq_ok.mp (checkFetchable_eq_ok.mp hcheck).1).2.2.1
  have hfetchable : Jobs.Fetchable urlsplit (strip raw) := by
    refine (fetchable_iff hshared hraw).mpr ⟨url,hparse,?_⟩
    rw [dropEmptyPassword_eq (by simp [hpassword])]
    exact hcheck
  refine ⟨hknown,hurl,hformat,?_,?_,hfetchable⟩
  · intro hnil
    have hblank : Jobs.Fetchable urlsplit (strip (lit "")) := by
      rw [hnil] at hfetchable
      exact hfetchable
    obtain ⟨url',hparse',_⟩ := (fetchable_iff hshared (show Denotes (lit "") "" from rfl)).mp hblank
    exact hempty url' hparse'
  · have hunits : (strip raw).length ≤ (utf16 (lit (stripText text))).length := by
      rw [← show utf16 (strip raw) = _ from denotes_strip hraw]
      exact length_le_utf16 _
    exact hunits.trans ((length_utf16_lit _).trans ((len_stripText text).trans hlen))

theorem shown_password {split : Except Builtin Jobs.SplitResult} {url url' : Url}
    (h : Shown split (.ok url)) (h' : Shown split (.ok url')) : url'.password = url.password := by
  obtain ⟨parsed,_,hsplit,_,_,_,hpassword,_⟩ := h
  obtain ⟨parsed',_,hsplit',_,_,_,hpassword',_⟩ := h'
  obtain rfl := Except.ok.inj (hsplit.symm.trans hsplit')
  exact Option.map_injective lit_injective (hpassword'.symm.trans hpassword)

/-- An admitted request is taken again when it is handed on. -/
theorem destination_of_takes (hshared : SharedOracle urlsplit urls) (hraw : Denotes raw text)
    (format : Format) (h : Jobs.Fetchable urlsplit (strip raw)) (htakes : Takes urls text) :
    ∃ destination,
      WebFetchRequest.destinationUrl urls ⟨stripText text,format⟩ = .ok destination := by
  obtain ⟨hlen,url,hparse,hcheck⟩ := htakes
  have hpassword : url.password = none :=
    (checkDestination_eq_ok.mp (checkFetchable_eq_ok.mp hcheck).1).2.2.1
  have hsame : strip (strip raw) = strip raw := Jobs.strip_strip raw
  rw [← hsame] at h
  obtain ⟨url',hparse',hcheck'⟩ := (fetchable_iff hshared (denotes_strip hraw)).mp h
  have hshown := hshared.shown raw text hraw
  have hshown' := hshared.shown (strip raw) (stripText text) (denotes_strip hraw)
  rw [hparse] at hshown
  rw [hsame,hparse'] at hshown'
  have hpassword' : url'.password = none := (shown_password hshown hshown').trans hpassword
  rw [dropEmptyPassword_eq (by simp [hpassword'])] at hcheck'
  exact ⟨url'.withoutFragment,destinationUrl_eq_ok.mpr ⟨(len_stripText text).trans hlen,url',
    hparse',(checkFetchable_eq_ok.mp hcheck').1,rfl⟩⟩

theorem rust_admits_dict {data : Dict Str Value} (hkeys : (data.map Prod.fst).Nodup)
    (hreads : Reads serde dumps readFloat (.dict data)) :
    (∃ request, WebFetchRequest.fromJson serde urls (dumps (.dict data)) = .ok request) ↔
      ∃ raw text format, Known data ∧ data.get (lit "url") = some (.str raw) ∧ Denotes raw text ∧
        ShowsFormat (data.get (lit "format")) format ∧ Takes urls text := by
  rw [fromJson_iff hreads]
  constructor
  · rintro ⟨⟨text,format⟩,hread,htakes⟩
    obtain ⟨hknown,⟨raw,hurl,hraw⟩,hformat⟩ := (reads_dict hkeys).mp hread
    exact ⟨raw,text,format,hknown,hurl,hraw,hformat,htakes⟩
  · rintro ⟨raw,text,format,hknown,hurl,hraw,hformat,htakes⟩
    exact ⟨⟨text,format⟩,(reads_dict hkeys).mpr ⟨hknown,⟨raw,hurl,hraw⟩,hformat⟩,htakes⟩

theorem NamesFormat.shows {shown : Option Value} (h : NamesFormat shown) :
    ∃ format, ShowsFormat shown format := by
  cases shown with
  | none => exact ⟨.markdown,rfl⟩
  | some value =>
    obtain ⟨format,hvalue⟩ := h value rfl
    exact ⟨format,.inl hvalue⟩

/-- The control plane and the Rust side agree on a payload, unless it is one of the forms that
one of them lets through. -/
theorem admission_agrees_iff (hshared : SharedOracle urlsplit urls)
    (hempty : ∀ url, urls.parse "" ≠ .ok url)
    (hkeys : ∀ data, value = .dict data → (data.map Prod.fst).Nodup)
    (hreads : Reads serde dumps readFloat value)
    (hpassed : ∀ request, Jobs.WebFetchRequest.fromDict urlsplit value = .ok request →
      Reads serde dumps readFloat request.toDict) :
    Agree serde dumps urlsplit urls value ↔ ¬Lenient urls value ∧ ¬Overlooked urlsplit urls value := by
  constructor
  · rintro ⟨hagree,_⟩
    constructor
    · intro hlenient
      cases hlenient with
      | @array raw text shown format hraw htext hformat =>
        have hrust : ∃ request, WebFetchRequest.fromJson serde urls (dumps _) = .ok request :=
          (fromJson_iff hreads).mpr
            ⟨⟨text,format⟩,reads_list.mpr ⟨raw,shown,rfl,hraw,hformat⟩,htext⟩
        obtain ⟨_,_,hdict,_⟩ := fromDict_iff.mp (hagree.mpr hrust)
        cases hdict
      | @variant data raw text format hknown hurl hraw htext hformat =>
        have hrust := (rust_admits_dict (hkeys data rfl) hreads).mpr
          ⟨raw,text,format,hknown,hurl,hraw,by rw [hformat]; exact .inr rfl,htext⟩
        obtain ⟨_,_,hdict,hadmissible⟩ := fromDict_iff.mp (hagree.mpr hrust)
        obtain rfl := Value.dict.inj hdict
        obtain ⟨_,hname⟩ := hadmissible.format _ hformat
        cases hname
    · intro hoverlooked
      obtain @⟨data,raw,hadmissible,hunfit⟩ := hoverlooked
      obtain ⟨raw',text,format,_,hurl,hdenotes,_,hlen,url,hparse,hcheck⟩ :=
        (rust_admits_dict (hkeys data rfl) hreads).mp
          (hagree.mp (fromDict_iff.mpr ⟨data,raw,rfl,hadmissible⟩))
      rw [hadmissible.url] at hurl
      obtain rfl := Value.str.inj (Option.some.inj hurl)
      have hpassword := (checkDestination_eq_ok.mp (checkFetchable_eq_ok.mp hcheck).1).2.2.1
      rcases hunfit text hdenotes with hlong | ⟨url',hparse',hpassword'⟩
      · omega
      · obtain rfl := Except.ok.inj (hparse.symm.trans hparse')
        rw [hpassword] at hpassword'
        cases hpassword'
  · rintro ⟨hlenient,hoverlooked⟩
    refine ⟨⟨?_,?_⟩,?_⟩
    · intro hpython
      obtain ⟨data,raw,rfl,hadmissible⟩ := fromDict_iff.mp hpython
      obtain ⟨text,hraw,hlen,hpassword⟩ := not_unfit fun hunfit => hoverlooked ⟨hadmissible,hunfit⟩
      obtain ⟨format,hformat⟩ := hadmissible.format.shows
      exact (rust_admits_dict (hkeys data rfl) hreads).mpr ⟨raw,text,format,hadmissible.known,
        hadmissible.url,hraw,hformat,
        takes_of_fetchable hshared hraw hadmissible.fetchable hlen hpassword⟩
    · intro hrust
      obtain ⟨⟨text,format⟩,⟨v,hv,hvalue⟩,htakes⟩ := (fromJson_iff hreads).mp hrust
      rcases reads_other hv hvalue with ⟨data,rfl⟩ | ⟨items,rfl⟩
      · obtain ⟨hknown,⟨raw,hurl,hraw⟩,hformat⟩ := (reads_dict (hkeys data rfl)).mp ⟨v,hv,hvalue⟩
        have hnames : NamesFormat (Dict.get data (lit "format")) := by
          intro shown hshown
          rw [Option.mem_def.mp hshown] at hformat
          rcases hformat with hname | hvariant
          · exact ⟨format,hname⟩
          · rw [Option.mem_def,hvariant] at hshown
            exact absurd (.variant hknown hurl hraw htakes hshown) hlenient
        exact fromDict_iff.mpr ⟨data,_,rfl,
          admissible_of_takes hshared hempty hknown hurl hraw hnames htakes⟩
      · obtain ⟨raw,shown,rfl,hraw,hformat⟩ := reads_list.mp ⟨v,hv,hvalue⟩
        exact absurd (.array hraw htakes hformat) hlenient
    · intro request hrequest
      obtain ⟨data,raw,rfl,hadmits⟩ := Jobs.fromDict_eq_ok.mp hrequest
      obtain ⟨data',raw',hdata,hadmissible⟩ := fromDict_iff.mp ⟨request,hrequest⟩
      obtain rfl := Value.dict.inj hdata
      obtain rfl : raw = raw' := by simpa using hadmits.given.symm.trans hadmissible.url
      obtain ⟨text,hraw,hlen,hpassword⟩ := not_unfit fun hunfit => hoverlooked ⟨hadmissible,hunfit⟩
      obtain ⟨format,hformat⟩ := mem_formats.mp hadmits.named
      obtain ⟨destination,hdestination⟩ := destination_of_takes hshared hraw format
        hadmissible.fetchable (takes_of_fetchable hshared hraw hadmissible.fetchable hlen hpassword)
      have hurl : Denotes request.url (stripText text) := hadmits.url ▸ denotes_strip hraw
      exact ⟨⟨stripText text,format⟩,destination,
        (fromStr_toDict (hpassed request hrequest)).mpr ⟨hurl,hformat⟩,hdestination⟩

end
/-- What is no white space in a string, as code units. -/
def solid (s : Str) : List ℕ := utf16 (s.filter (fun c => !isSpace c))

/-- Parsers that know one URL. -/
def oneSplit (text : String) : Jobs.UrlSplit := fun s =>
  if solid s = solid (lit text) then
    .ok ⟨lit "http",none,none,some (lit "example.com"),.ok none⟩
  else .error .valueError

def oneUrl (text : String) (url : Url) : UrlCrate where
  parse text' :=
    if solid (lit text') = solid (lit text) then .ok url
    else .error "relative URL without a base"
  join _ _ := .error "invalid port number"
  asStr _ := text

theorem filter_trimMatches {α : Type} {p q : α → Bool} (h : ∀ a, q a = true → p a = true)
    (l : List α) : (trimMatches q l).filter (fun a => !p a) = l.filter (fun a => !p a) := by
  have hdrop : ∀ l : List α, (l.dropWhile q).filter (fun a => !p a) = l.filter (fun a => !p a) := by
    intro l
    induction l with
    | nil => rfl
    | cons a l ih =>
      cases hq : q a with
      | true => rw [List.dropWhile_cons_of_pos hq,ih,List.filter_cons_of_neg (by simp [h a hq])]
      | false => rw [List.dropWhile_cons_of_neg (by simp [hq])]
  rw [trimMatches,List.filter_reverse,hdrop,List.filter_reverse,hdrop,List.reverse_reverse]

theorem solid_strip (s : Str) : solid (strip s) = solid s := by
  rw [solid,strip,filter_trimMatches (fun _ h => h),solid]

theorem solid_trim (text : String) : solid (lit (trim text)) = solid (lit text) := by
  rw [solid,lit,trim,String.toList_ofList,List.filter_map,solid,lit,List.filter_map]
  exact congrArg (fun chars : List Char => utf16 (chars.map ofChar))
    (filter_trimMatches (fun _ => isSpace_ofChar) text.toList)

theorem solid_denotes {raw : Str} {text : String} (h : Denotes raw text) :
    solid raw = solid (lit text) := by
  have hkind : ∀ c, ∀ u ∈ units c, (!isSpaceUnit u) = !isSpace c :=
    fun c u hu => congrArg (! ·) (isSpaceUnit_of_mem c u hu)
  have hfilter : ∀ s, solid s = (utf16 s).filter (fun u => !isSpaceUnit u) :=
    fun s => (filter_flatMap_of_kind hkind s).symm
  rw [hfilter,hfilter,show utf16 raw = utf16 (lit text) from h]

/-- A page of the site. -/
def sitePage (path : String) : Url := ⟨"http","",none,some "example.com",none,path,none,none⟩

theorem one_sharedOracle (text path : String) :
    SharedOracle (oneSplit text) (oneUrl text (sitePage path)) := by
  refine ⟨fun raw other hraw => ?_⟩
  unfold oneSplit oneUrl
  dsimp only
  rw [solid_strip,solid_denotes hraw,solid_trim]
  by_cases hother : solid (lit other) = solid (lit text)
  · rw [if_pos hother,if_pos hother]
    exact ⟨_,none,rfl,rfl,rfl,rfl,rfl,rfl,.inl rfl⟩
  · rw [if_neg hother,if_neg hother]
    rintro ⟨_,_,hok,_⟩
    cases hok

theorem one_parse (text : String) (url : Url) : (oneUrl text url).parse (trim text) = .ok url := by
  unfold oneUrl
  dsimp only
  rw [if_pos (solid_trim text)]

def onePayload (text : String) : Value := .dict [(lit "url",.str (lit text))]

/-- The text of a payload, and of the request that is made of it. -/
def oneDumps (escaped : String) : Value → String
  | .dict [_] => "\x7b\"url\": \"" ++ escaped ++ "\"\x7d"
  | _ => "\x7b\"url\": \"" ++ escaped ++ "\", \"format\": \"markdown\"\x7d"

def oneSerde (escaped text : String) : SerdeJson where
  parse text' :=
    if text' = oneDumps escaped (onePayload text) then some (.obj [("url",.str text)])
    else some (.obj [("url",.str text),("format",.str "markdown")])
  print _ := oneDumps escaped (onePayload text)
  errorText _ := "EOF while parsing a value at line 1 column 0"

theorem one_reads (escaped text : String) :
    Reads (oneSerde escaped text) (oneDumps escaped) (fun _ => none) (onePayload text) := by
  have hdocument : (onePayload text).document (fun _ => none) maxDepth =
      some (.obj [("url",.str text)]) :=
    document_eq_obj.mpr ⟨_,rfl,.cons ⟨rfl,document_lit⟩ .nil⟩
  rw [Reads,hdocument]
  unfold oneSerde
  dsimp only
  rw [if_pos rfl]

theorem one_admissible {text : String} (path : String) (hnonempty : strip (lit text) ≠ [])
    (hshort : (strip (lit text)).length ≤ Jobs.maxUrlChars) :
    Admissible (oneSplit text) [(lit "url",.str (lit text))] (lit text) where
  known _ hkey := .inl (List.mem_singleton.mp hkey)
  url := rfl
  format := nofun
  nonempty := hnonempty
  short := hshort
  fetchable := (fetchable_iff (one_sharedOracle text path) rfl).mpr ⟨_,one_parse text _,rfl⟩

/-- A path of letters that take two bytes each. -/
def letters (n : ℕ) : String := String.ofList (List.replicate n 'é')

theorem len_letters (n : ℕ) : len (letters n) = 2 * n := by
  unfold len asBytes letters
  rw [String.toList_ofList]
  induction n with
  | zero => rfl
  | succ n ih =>
    have hletter : (String.utf8EncodeChar 'é').length = 2 := by decide
    rw [List.replicate_succ,List.flatMap_cons,List.length_append,ih,hletter]
    omega

theorem lit_letters (n : ℕ) : lit (letters n) = List.replicate n (ofChar 'é') := by
  rw [lit,letters,String.toList_ofList,List.map_replicate]

def shortText : String := "http://example.com/"

/-- A short URL is admitted by both sides. -/
theorem agree_short : Agree (oneSerde shortText shortText) (oneDumps shortText) (oneSplit shortText)
    (oneUrl shortText (sitePage "/")) (onePayload shortText) := by
  have hempty : ∀ url, (oneUrl shortText (sitePage "/")).parse "" ≠ .ok url := by
    intro url
    have hblank : ¬solid (lit "") = solid (lit shortText) := by decide
    simp only [oneUrl,if_neg hblank]
    exact nofun
  have hkeys : ∀ data, onePayload shortText = .dict data → (data.map Prod.fst).Nodup := by
    rintro data hdata
    rw [← Value.dict.inj hdata]
    exact List.nodup_singleton _
  have hpassed : ∀ request, Jobs.WebFetchRequest.fromDict (oneSplit shortText)
      (onePayload shortText) = .ok request → Reads (oneSerde shortText shortText)
        (oneDumps shortText) (fun _ => none) request.toDict := by
    intro request hrequest
    obtain ⟨data,raw,hdata,hadmits⟩ := Jobs.fromDict_eq_ok.mp hrequest
    obtain rfl := Value.dict.inj hdata
    have hurl : lit shortText = raw := Value.str.inj (Option.some.inj hadmits.given)
    have hformat : lit "markdown" = request.format := Value.str.inj hadmits.format
    have hstripped : strip (lit shortText) = lit shortText := by decide
    have hdocument : request.toDict.document (fun _ => none) maxDepth =
        some (.obj [("url",.str shortText),("format",.str "markdown")]) := by
      refine document_eq_obj.mpr ⟨_,rfl,.cons ⟨rfl,?_⟩ (.cons ⟨rfl,?_⟩ .nil)⟩
      · rw [hadmits.url,← hurl,hstripped]
        exact document_lit
      · rw [← hformat]
        exact document_lit
    have hother : ¬oneDumps shortText request.toDict = oneDumps shortText (onePayload shortText) := by
      show ¬"\x7b\"url\": \"" ++ shortText ++ "\", \"format\": \"markdown\"\x7d" =
        "\x7b\"url\": \"" ++ shortText ++ "\"\x7d"
      decide
    rw [Reads,hdocument]
    unfold oneSerde
    dsimp only
    rw [if_neg hother]
  refine (admission_agrees_iff (one_sharedOracle _ _) hempty hkeys (one_reads _ _) hpassed).mpr
    ⟨?_,?_⟩
  · intro hlenient
    obtain _ | ⟨_,_,_,_,hformat⟩ := hlenient
    cases hformat
  · intro hoverlooked
    obtain @⟨_,raw,hadmissible,hunfit⟩ := hoverlooked
    have hurl : lit shortText = raw := Value.str.inj (Option.some.inj hadmissible.url)
    rcases hunfit shortText (congrArg utf16 hurl.symm) with hlong | ⟨url,hparse,hpassword⟩
    · revert hlong
      decide
    · rw [one_parse] at hparse
      rw [← Except.ok.inj hparse] at hpassword
      cases hpassword

/-- 1119 code points, and 2219 bytes. -/
def longText : String := shortText ++ letters 1100
theorem lit_longText : lit longText = lit shortText ++ List.replicate 1100 (ofChar 'é') := by
  rw [longText,lit_append,lit_letters]

theorem strip_longText : strip (lit longText) = lit longText := by
  have hsite : (lit shortText).all (fun c => !isSpace c) = true := by decide
  have hletter : isSpace (ofChar 'é') = false := rfl
  rw [lit_longText]
  refine trimMatches_of_forall fun c hc => ?_
  rcases List.mem_append.mp hc with hc | hc
  · simpa using List.all_eq_true.mp hsite c hc
  · rw [List.eq_of_mem_replicate hc]
    exact hletter
theorem len_longText : len longText = 2219 := by
  have hsite : len shortText = 19 := by decide
  rw [longText,len,asBytes_append,List.length_append,← len,← len,len_letters,hsite]
theorem length_longText : (lit longText).length = 1119 := by
  have hsite : (lit shortText).length = 19 := by decide
  rw [lit_longText,List.length_append,List.length_replicate,hsite]

def longEscaped : String :=
  shortText ++ String.ofList (List.replicate 1100 "\\u00e9".toList).flatten

def longPath : String := "/" ++ String.ofList (List.replicate 1100 "%C3%A9".toList).flatten

/-- A URL within the limit of 2048 code points is over that of 2048 bytes. -/
theorem not_agree_long : SharedOracle (oneSplit longText) (oneUrl longText (sitePage longPath)) ∧
    Reads (oneSerde longEscaped longText) (oneDumps longEscaped) (fun _ => none)
      (onePayload longText) ∧
    ¬Agree (oneSerde longEscaped longText) (oneDumps longEscaped) (oneSplit longText)
      (oneUrl longText (sitePage longPath)) (onePayload longText) := by
  refine ⟨one_sharedOracle _ _,one_reads _ _,?_⟩
  rintro ⟨hagree,_⟩
  have hnonempty : strip (lit longText) ≠ [] := by
    intro hnil
    have hlength := length_longText
    rw [← strip_longText,hnil] at hlength
    cases hlength
  have hshort : (strip (lit longText)).length ≤ Jobs.maxUrlChars := by
    rw [strip_longText,length_longText]
    decide
  obtain ⟨request,⟨v,hv,hvalue⟩,hlen,_⟩ := (fromJson_iff (one_reads _ _)).mp
    (hagree.mp (fromDict_iff.mpr ⟨_,_,rfl,one_admissible longPath hnonempty hshort⟩))
  have hkeys : ([(lit "url",Value.str (lit longText))].map Prod.fst).Nodup := List.nodup_singleton _
  obtain ⟨_,⟨raw,hurl,hraw⟩,_⟩ := (reads_dict hkeys).mp ⟨v,hv,hvalue⟩
  obtain rfl : lit longText = raw := Value.str.inj (Option.some.inj hurl)
  rw [← Denotes.unique rfl hraw,len_longText] at hlen
  revert hlen
  decide

end HearthAI.Stages
