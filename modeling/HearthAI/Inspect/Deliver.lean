import HearthAI.Inspect.Clearance

/-! # Which released data the result contract accepts

Of the rules for a result, the passes have already settled those about the content and
the media type. What is left depends on the fields of the artifact alone.
-/
namespace HearthAI.Inspect
open Text Contracts

/-- The fields that a result repeats satisfy the rules for a result. -/
structure Reportable (engine : Engine) (artifact : FetchArtifact) : Prop where
  sourceId : isSourceId artifact.sourceId = true
  finalUrl : len artifact.finalUrl ≤ maxUrlChars
  destination : ∃ url, engine.urls.parse artifact.finalUrl = .ok url ∧ checkDestination url = .ok ()
  httpStatus : 100 ≤ artifact.httpStatus ∧ artifact.httpStatus ≤ 599
  retrievedAt : ∃ text, reformatted engine artifact.retrievedAt = .ok text ∧
    (engine.times.parseRfc3339 text).isSome

/-- The rules for the value of a header: not empty, of a bounded length, printable ASCII. -/
structure Printable (bound : ℕ) (value : String) : Prop where
  nonempty : value.isEmpty = false
  bounded : len value ≤ bound
  plain : value.toList.any (fun c => isControl c || !isAscii c) = false

instance (bound : ℕ) (value : String) : Decidable (Printable bound value) :=
  decidable_of_iff (value.isEmpty = false ∧ len value ≤ bound ∧
      value.toList.any (fun c => isControl c || !isAscii c) = false)
    ⟨fun ⟨h,h',h''⟩ => ⟨h,h',h''⟩,fun ⟨h,h',h''⟩ => ⟨h,h',h''⟩⟩

theorem Printable.append {a b : ℕ} {s t : String} (hs : Printable a s) (ht : Printable b t) :
    Printable (a + b) (s ++ t) where
  nonempty := by
    have hempty := hs.nonempty
    rw [Bool.eq_false_iff,ne_eq,String.isEmpty_iff] at hempty ⊢
    exact fun h => hempty (String.append_eq_empty_iff.mp h).1
  bounded := by
    have hlen : len (s ++ t) = len s + len t := by simp [len]
    have hbs := hs.bounded
    have hbt := ht.bounded
    omega
  plain := by rw [String.toList_append,List.any_append,hs.plain,ht.plain]; rfl

theorem supportedMedia_eq_ok {artifact : FetchArtifact} {media : MediaType} :
    supportedMedia artifact = .ok media ↔ ∃ declared, artifact.contentType = some declared ∧
      MediaType.parse declared = .ok media ∧ media.isSupported = true := by
  unfold supportedMedia
  cases artifact.contentType with
  | none => simp
  | some declared =>
    dsimp only
    cases hparse : MediaType.parse declared with
    | error e => simp [hparse]
    | ok media' =>
      dsimp only
      split_ifs with h
      · constructor
        · intro heq
          obtain rfl := Except.ok.inj heq
          exact ⟨declared,rfl,hparse,h⟩
        · rintro ⟨_,hdeclared,hmedia,_⟩
          cases hdeclared
          exact congrArg Except.ok (Except.ok.inj (hparse.symm.trans hmedia))
      · constructor
        · intro heq
          cases heq
        · rintro ⟨_,hdeclared,hmedia,hsupported⟩
          cases hdeclared
          rw [hparse] at hmedia
          exact absurd (Except.ok.inj hmedia ▸ hsupported) h

/-- The supported types and charsets are tables of short printable names. -/
theorem printable_headerValue {media : MediaType} (h : media.isSupported = true) :
    Printable 60 media.headerValue := by
  obtain ⟨essence,charset⟩ := media
  obtain ⟨hessence,hcharset⟩ := Bool.and_eq_true_iff.mp h
  have hmem : essence ∈ supportedMediaTypes := by simpa using hessence
  have htypes : ∀ essence ∈ supportedMediaTypes, Printable 30 essence := by decide
  have htype := htypes essence hmem
  cases charset with
  | none => exact ⟨htype.nonempty,Nat.le_trans htype.bounded (by decide),htype.plain⟩
  | some charset =>
    have hmem' : charset ∈ supportedCharsets := by simpa using hcharset
    have hcharsets : ∀ charset ∈ supportedCharsets, Printable 20 charset := by decide
    have hlabel : Printable 10 "; charset=" := by decide
    exact (htype.append hlabel).append (hcharsets charset hmem')

section
variable {engine : Engine}

/-- A chain or a pass without conversion leaves the headers as they are, and content that is
returned as HTML has not been converted. -/
theorem inspected_script_eq_reach {chain : List Converter} {normalized : Normalized}
    {checks : List Check} {inspected : Inspected}
    (h : Inspected.script engine chain normalized = .reach checks inspected) :
    inspected.artifact = normalized.artifact ∧ inspected.media = normalized.media ∧
      (inspected.artifact.format = .html → inspected.candidate.method = .source) := by
  unfold Inspected.script Normalized.inspectedScript at h
  split_ifs at h with hhtml hmedia
  · obtain ⟨_,_,_,_,hreturn,_⟩ := Script.bind_eq_reach.mp h
    obtain ⟨_,rfl⟩ := Script.pure_eq_reach.mp hreturn
    exact ⟨rfl,rfl,fun _ => rfl⟩
  · obtain ⟨_,_,_,_,hreturn,_⟩ := Script.bind_eq_reach.mp h
    obtain ⟨_,rfl⟩ := Script.pure_eq_reach.mp hreturn
    exact ⟨rfl,rfl,fun hformat => absurd hformat hhtml⟩
  · obtain ⟨_,_,_,_,hreturn,_⟩ := Script.bind_eq_reach.mp h
    obtain ⟨_,rfl⟩ := Script.pure_eq_reach.mp hreturn
    exact ⟨rfl,rfl,fun hformat => absurd hformat hhtml⟩

/-- What the passes have made of a response on the way to its data. -/
theorem clearance_inspected {chain : List Converter} {read : Except ContractError Handed}
    {checks : List Check} {d : WebFetchData} (h : clearance engine chain read = .reach checks d) :
    ∃ received : Received, ∃ text inspected retrievedAt more,
      read = .ok (.fetched received.artifact received.body) ∧
      supportedMedia received.artifact = .ok received.media ∧ received.decode engine = .ok text ∧
      Inspected.script engine chain ⟨received.artifact,received.media,text⟩ = .reach more inspected ∧
      inspected.candidate.content.length ≤ maxContentChars ∧
      reformatted engine inspected.artifact.retrievedAt = .ok retrievedAt ∧
      d = inspected.data retrievedAt := by
  unfold clearance at h
  obtain ⟨_,handed,_,hread,hopen,_⟩ := Script.bind_eq_reach.mp h
  obtain ⟨_,received,_,hreceived,hwire,_⟩ := Script.bind_eq_reach.mp hopen
  obtain ⟨_,decoded,_,hdecoded,hscan,_⟩ := Script.bind_eq_reach.mp hwire
  obtain ⟨_,normalized,_,hnormalized,hconvert,_⟩ := Script.bind_eq_reach.mp hscan
  obtain ⟨more,inspected,_,hinspected,hrelease,_⟩ := Script.bind_eq_reach.mp hconvert
  obtain ⟨_,rfl⟩ := Script.ofExcept_eq_reach.mp hread
  cases handed with
  | failed code => cases hreceived
  | fetched artifact body =>
    obtain ⟨_,media,_,hmedia,hreturn,_⟩ := Script.bind_eq_reach.mp hreceived
    obtain ⟨_,hmedia⟩ := Script.ofExcept_eq_reach.mp hmedia
    obtain ⟨_,rfl⟩ := Script.pure_eq_reach.mp hreturn
    obtain ⟨_,_,_,_,hdecode,_⟩ := Script.bind_eq_reach.mp hdecoded
    obtain ⟨_,text,_,htext,hreturn,_⟩ := Script.bind_eq_reach.mp hdecode
    obtain ⟨_,htext⟩ := Script.ofExcept_eq_reach.mp htext
    obtain ⟨_,rfl⟩ := Script.pure_eq_reach.mp hreturn
    have hsame : normalized = ⟨artifact,media,text⟩ := by
      obtain ⟨_,_,_,_,hscan,_⟩ := Script.bind_eq_reach.mp hnormalized
      obtain ⟨_,_,_,_,hentities,_⟩ := Script.bind_eq_reach.mp hscan
      obtain ⟨_,_,_,_,hfolded,_⟩ := Script.bind_eq_reach.mp hentities
      obtain ⟨_,_,_,_,hreturn,_⟩ := Script.bind_eq_reach.mp hfolded
      exact (Script.pure_eq_reach.mp hreturn).2.symm
    subst hsame
    unfold Inspected.releaseScript at hrelease
    split_ifs at hrelease with hlong
    obtain ⟨_,retrievedAt,_,hretrieved,hlast,_⟩ := Script.bind_eq_reach.mp hrelease
    obtain ⟨_,hretrieved⟩ := Script.ofExcept_eq_reach.mp hretrieved
    obtain ⟨_,_,_,_,hscan,_⟩ := Script.bind_eq_reach.mp hlast
    obtain ⟨_,_,_,_,hreturn,_⟩ := Script.bind_eq_reach.mp hscan
    obtain ⟨_,rfl⟩ := Script.pure_eq_reach.mp hreturn
    exact ⟨⟨artifact,media,body⟩,text,inspected,retrievedAt,more,rfl,hmedia,htext,hinspected,
      Nat.le_of_not_lt hlong,hretrieved,rfl⟩

/-- The data of an inspection, with what the passes have settled about it. -/
theorem clearance_data {chain : List Converter} {read : Except ContractError Handed}
    {checks : List Check} {d : WebFetchData} (h : clearance engine chain read = .reach checks d) :
    ∃ inspected : Inspected, ∃ body text, read = .ok (.fetched inspected.artifact body) ∧
      supportedMedia inspected.artifact = .ok inspected.media ∧
      (inspected.artifact.format = .html → inspected.candidate.method = .source) ∧
      inspected.candidate.content.length ≤ maxContentChars ∧
      reformatted engine inspected.artifact.retrievedAt = .ok text ∧ d = inspected.data text := by
  obtain ⟨received,_,inspected,retrievedAt,_,hread,hmedia,_,hinspected,hlength,hretrieved,hdata⟩ :=
    clearance_inspected h
  obtain ⟨hartifact,hmedia',hsource⟩ := inspected_script_eq_reach hinspected
  dsimp only at hartifact hmedia'
  refine ⟨inspected,received.body,retrievedAt,?_,?_,hsource,hlength,hretrieved,hdata⟩
  · rw [hread,hartifact]
  · rw [hartifact,hmedia',hmedia]

/-- Data of a supported type with admitted content validates exactly when the artifact's own
fields do. -/
theorem validate_data_iff (inspected : Inspected) {text : String}
    (hmedia : supportedMedia inspected.artifact = .ok inspected.media)
    (hsource : inspected.artifact.format = .html → inspected.candidate.method = .source)
    (hcontent : inspected.candidate.content.length ≤ maxContentChars)
    (htext : reformatted engine inspected.artifact.retrievedAt = .ok text) :
    (inspected.data text).validate engine.urls engine.times = .ok () ↔
      Reportable engine inspected.artifact := by
  obtain ⟨_,_,_,hsupported⟩ := supportedMedia_eq_ok.mp hmedia
  have hheader := printable_headerValue hsupported
  have husable : ¬(inspected.media.headerValue.isEmpty ||
      len inspected.media.headerValue > maxContentTypeChars) := by
    have hbound : len inspected.media.headerValue ≤ maxContentTypeChars :=
      Nat.le_trans hheader.bounded (by decide)
    simp [hheader.nonempty,hbound]
  unfold WebFetchData.validate
  simp only [bind_eq_ok,mapError_eq_ok,Inspected.data]
  constructor
  · rintro ⟨_,hid,_,hlen,url,hurl,_,hdestination,_,hstatus,_,_,_,_,_,htime,_⟩
    have hid := refuseIf_eq_ok.mp hid
    have hlen := refuseIf_eq_ok.mp hlen
    have hstatus := refuseIf_eq_ok.mp hstatus
    rw [Bool.not_eq_true',Bool.not_eq_false,Bool.and_eq_true_iff] at hstatus
    have htime := refuseIf_eq_ok.mp htime
    refine ⟨by simpa using hid,Nat.le_of_not_lt hlen,⟨url,hurl,hdestination⟩,
      ⟨of_decide_eq_true hstatus.1,of_decide_eq_true hstatus.2⟩,text,htext,?_⟩
    rw [Option.isSome_iff_ne_none]
    simpa using htime
  · rintro ⟨hid,hlen,⟨url,hurl,hdestination⟩,hstatus,text',htext',htime⟩
    obtain rfl := Except.ok.inj (htext.symm.trans htext')
    have hmethod : ¬(inspected.artifact.format = .html ∧ inspected.candidate.method ≠ .source) :=
      fun ⟨hhtml,hmethod⟩ => hmethod (hsource hhtml)
    refine ⟨(),refuseIf_eq_ok.mpr (by simp [hid]),(),refuseIf_eq_ok.mpr (Nat.not_lt.mpr hlen),url,
      hurl,(),hdestination,(),refuseIf_eq_ok.mpr (by simp [hstatus]),(),refuseIf_eq_ok.mpr husable,(),
      refuseIf_eq_ok.mpr (by simp [hheader.plain]),(),refuseIf_eq_ok.mpr ?_,(),
      refuseIf_eq_ok.mpr (Nat.not_lt.mpr hcontent),refuseIf_eq_ok.mpr hmethod⟩
    rw [Option.isSome_iff_ne_none] at htime
    simpa using htime

/-- What the pipeline returns validates exactly when the artifact is reportable. -/
theorem clearance_validates {chain : List Converter} {artifact : FetchArtifact} {body : Bytes}
    {checks : List Check} {d : WebFetchData}
    (h : clearance engine chain (.ok (.fetched artifact body)) = .reach checks d) :
    d.validate engine.urls engine.times = .ok () ↔ Reportable engine artifact := by
  obtain ⟨inspected,_,text,hread,hmedia,hsource,hcontent,htext,rfl⟩ := clearance_data h
  obtain rfl : artifact = inspected.artifact := by
    cases hread
    rfl
  exact validate_data_iff inspected hmedia hsource hcontent htext

end
end HearthAI.Inspect
