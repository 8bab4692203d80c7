import HearthAI.Inspect.Decode

/-! # Bodies of several members

The readers of the decompressor take one gzip member, or one zlib stream, off the front of a
body and never look at the bytes behind it. A gzip body may have any number of members.
-/
namespace HearthAI.Inspect
open Text Contracts

/-- One member off the front of a body: its content, and the bytes behind it. -/
abbrev Decoder := Bytes → Option (Bytes × Bytes)

/-- The reader delivers the content of the first member. What it makes of a body that has none,
as one that breaks off in the middle, is left open. -/
def Decoder.ReadBy (decoder : Decoder) (reader : Bytes → Stream) : Prop :=
  ∀ body content rest, decoder body = some (content,rest) → reader body = ⟨content,false⟩

/-- The contents of all members of a body, one after the other. -/
inductive Decoder.Members (decoder : Decoder) : Bytes → Bytes → Prop
  | last {body content : Bytes} (h : decoder body = some (content,[])) :
      Members decoder body content
  | more {body content rest others : Bytes} (h : decoder body = some (content,rest))
      (hrest : rest ≠ []) (hothers : Members decoder rest others) :
      Members decoder body (content ++ others)

/-- The decompressors of `flate2`, with the formats that they read. -/
structure Formats (codecs : Codecs) where
  gzip : Decoder
  zlib : Decoder
  gzipRead : gzip.ReadBy codecs.gzip
  zlibRead : zlib.ReadBy codecs.zlib

inductive Coding
  | identity
  | gzip
  | deflate
  | other
  deriving DecidableEq, Repr

/-- The content coding that a header names. -/
def Coding.of (contentEncoding : Option String) : Coding :=
  let coding := toAsciiLowercase (trim (contentEncoding.getD "identity"))
  if coding = "" ∨ coding = "identity" then .identity
  else if coding = "gzip" then .gzip
  else if coding = "deflate" then .deflate
  else .other

/-- The decoded representation of a whole body under a content coding. -/
inductive Decodes {codecs : Codecs} (formats : Formats codecs) (body : Bytes) :
    Coding → Bytes → Prop
  | identity : Decodes formats body .identity body
  | gzip {bytes : Bytes} (h : formats.gzip.Members body bytes) : Decodes formats body .gzip bytes
  | deflate {bytes : Bytes} (h : formats.zlib body = some (bytes,[])) :
      Decodes formats body .deflate bytes

/-- What a body may expand to. -/
def ceiling (wireBytes : ℕ) : ℕ := min maxDecodedBytes (max (64 * wireBytes) 4096)

/-- A whole representation in its bounds, or an error. -/
structure AllOrNothing {codecs : Codecs} (formats : Formats codecs) (body : Bytes)
    (contentEncoding : Option String) : Prop where
  complete : ∀ bytes, decodeContentEncoding codecs body contentEncoding = .ok bytes →
    Decodes formats body (.of contentEncoding) bytes
  bounded : ∀ bytes, decodeContentEncoding codecs body contentEncoding = .ok bytes →
    bytes.length ≤ maxDecodedBytes ∧
      (Coding.of contentEncoding = .gzip ∨ Coding.of contentEncoding = .deflate →
        bytes.length ≤ max (64 * body.length) 4096)
  whole : ∀ bytes full, decodeContentEncoding codecs body contentEncoding = .ok bytes →
    Decodes formats body (.of contentEncoding) full → bytes <+: full → bytes = full

/-- A first member that fits, in front of bytes that a whole body does not have there. -/
def CutShort {codecs : Codecs} (formats : Formats codecs) (body : Bytes)
    (contentEncoding : Option String) : Prop :=
  ∃ content rest, content.length ≤ ceiling body.length ∧ rest ≠ [] ∧
    (Coding.of contentEncoding = .gzip ∧ formats.gzip body = some (content,rest) ∧
        ¬formats.gzip.Members rest [] ∨
      Coding.of contentEncoding = .deflate ∧ formats.zlib body = some (content,rest))

/-- No first member, and a reader that ends all the same, with content that fits. -/
def TakenWhole {codecs : Codecs} (formats : Formats codecs) (body : Bytes)
    (contentEncoding : Option String) : Prop :=
  ∃ content, content.length ≤ ceiling body.length ∧
    (Coding.of contentEncoding = .gzip ∧ formats.gzip body = none ∧
        codecs.gzip body = ⟨content,false⟩ ∨
      Coding.of contentEncoding = .deflate ∧ formats.zlib body = none ∧
        codecs.zlib body = ⟨content,false⟩)

section
variable {codecs : Codecs} {formats : Formats codecs} {decoder : Decoder}
  {reader : Bytes → Stream} {body bytes other : Bytes} {contentEncoding : Option String}

theorem ceiling_eq (wireBytes : ℕ) :
    min maxDecodedBytes (max (saturatingMul wireBytes maxDecodeExpansion) 4096) =
      ceiling wireBytes := by
  unfold ceiling saturatingMul maxDecodedBytes maxDecodeExpansion
  omega

theorem boundedRead_eq_ok {stream : Stream} {wireBytes : ℕ} :
    boundedRead stream wireBytes = .ok bytes ↔
      stream = ⟨bytes,false⟩ ∧ bytes.length ≤ ceiling wireBytes := by
  obtain ⟨delivered,broken⟩ := stream
  unfold boundedRead Stream.takeToEnd
  rw [ceiling_eq]
  dsimp only
  by_cases hlimit : ceiling wireBytes + 1 ≤ delivered.length
  · have htake : (delivered.take (ceiling wireBytes + 1)).length > ceiling wireBytes := by
      rw [List.length_take]
      omega
    rw [if_pos hlimit]
    dsimp only
    rw [if_pos htake]
    refine iff_of_false nofun ?_
    rintro ⟨hstream,hlength⟩
    obtain rfl := (Stream.mk.inj hstream).1
    omega
  · have hfits : ¬delivered.length > ceiling wireBytes := by omega
    rw [if_neg hlimit]
    cases broken with
    | true =>
      refine iff_of_false nofun ?_
      rintro ⟨hstream,_⟩
      cases (Stream.mk.inj hstream).2
    | false =>
      rw [if_neg Bool.false_ne_true]
      dsimp only
      rw [if_neg hfits,Except.ok.injEq]
      constructor
      · rintro rfl
        exact ⟨rfl,Nat.not_lt.mp hfits⟩
      · rintro ⟨hstream,_⟩
        exact (Stream.mk.inj hstream).1

/-- What a reader ends with is the content of the first member, if there is one. -/
theorem Decoder.ReadBy.first (h : decoder.ReadBy reader) (hread : reader body = ⟨bytes,false⟩) :
    decoder body = none ∨ ∃ rest, decoder body = some (bytes,rest) := by
  cases hdecoder : decoder body with
  | none => exact .inl rfl
  | some first =>
    obtain ⟨content,rest⟩ := first
    have hcontent := h body content rest hdecoder
    rw [hread] at hcontent
    obtain rfl := (Stream.mk.inj hcontent).1
    exact .inr ⟨rest,rfl⟩

theorem Decoder.Members.unique (h : decoder.Members body bytes)
    (hother : decoder.Members body other) : bytes = other := by
  induction h generalizing other with
  | last h =>
    cases hother with
    | last h' =>
      rw [h] at h'
      exact (Prod.mk.inj (Option.some.inj h')).1
    | more h' hrest _ =>
      rw [h] at h'
      exact absurd (Prod.mk.inj (Option.some.inj h')).2.symm hrest
  | more h hrest _ ih =>
    cases hother with
    | last h' =>
      rw [h] at h'
      exact absurd (Prod.mk.inj (Option.some.inj h')).2 hrest
    | more h' _ hothers =>
      rw [h] at h'
      obtain ⟨rfl,rfl⟩ := Prod.mk.inj (Option.some.inj h')
      rw [ih hothers]

/-- What a body holds behind its first member. -/
theorem Decoder.Members.behind {content rest : Bytes} (h : decoder.Members body bytes)
    (hfirst : decoder body = some (content,rest)) (hrest : rest ≠ []) :
    ∃ others, bytes = content ++ others ∧ decoder.Members rest others := by
  cases h with
  | last h =>
    rw [hfirst] at h
    exact absurd (Prod.mk.inj (Option.some.inj h)).2 hrest
  | more h _ hothers =>
    rw [hfirst] at h
    obtain ⟨rfl,rfl⟩ := Prod.mk.inj (Option.some.inj h)
    exact ⟨_,rfl,hothers⟩

theorem Decodes.unique {coding : Coding} (h : Decodes formats body coding bytes)
    (hother : Decodes formats body coding other) : bytes = other := by
  cases h with
  | identity =>
    cases hother
    rfl
  | gzip h =>
    cases hother with
    | gzip h' => exact h.unique h'
  | deflate h =>
    cases hother with
    | deflate h' =>
      rw [h] at h'
      exact (Prod.mk.inj (Option.some.inj h')).1

theorem decodeContentEncoding_eq (body : Bytes) (contentEncoding : Option String) :
    decodeContentEncoding codecs body contentEncoding =
      match Coding.of contentEncoding with
      | .identity =>
        if body.length > maxDecodedBytes then .error .responseLimitExceeded else .ok body
      | .gzip => boundedRead (codecs.gzip body) body.length
      | .deflate => boundedRead (codecs.zlib body) body.length
      | .other => .error .unsupportedContent := by
  unfold decodeContentEncoding Coding.of
  dsimp only
  split_ifs <;> rfl

/-- What is returned is what a reader ends with, and it fits. -/
theorem decodeContentEncoding_eq_ok :
    decodeContentEncoding codecs body contentEncoding = .ok bytes ↔
      match Coding.of contentEncoding with
      | .identity => bytes = body ∧ body.length ≤ maxDecodedBytes
      | .gzip => codecs.gzip body = ⟨bytes,false⟩ ∧ bytes.length ≤ ceiling body.length
      | .deflate => codecs.zlib body = ⟨bytes,false⟩ ∧ bytes.length ≤ ceiling body.length
      | .other => False := by
  rw [decodeContentEncoding_eq]
  cases Coding.of contentEncoding with
  | identity =>
    dsimp only
    split_ifs with hlength
    · exact iff_of_false nofun fun h => absurd h.2 (Nat.not_le.mpr hlength)
    · rw [Except.ok.injEq]
      exact ⟨fun h => ⟨h.symm,Nat.not_lt.mp hlength⟩,fun h => h.1.symm⟩
  | gzip => exact boundedRead_eq_ok
  | deflate => exact boundedRead_eq_ok
  | other => exact iff_of_false nofun id

theorem decodes_of_not_cutShort (hcut : ¬CutShort formats body contentEncoding)
    (htaken : ¬TakenWhole formats body contentEncoding)
    (hok : decodeContentEncoding codecs body contentEncoding = .ok bytes) :
    Decodes formats body (.of contentEncoding) bytes := by
  rw [decodeContentEncoding_eq_ok] at hok
  cases hcoding : Coding.of contentEncoding with
  | identity =>
    rw [hcoding] at hok
    rw [hok.1]
    exact .identity
  | gzip =>
    rw [hcoding] at hok
    obtain ⟨hread,hfits⟩ := hok
    rcases formats.gzipRead.first hread with hnone | ⟨rest,hfirst⟩
    · exact absurd ⟨bytes,hfits,.inl ⟨hcoding,hnone,hread⟩⟩ htaken
    · refine .gzip ?_
      by_cases hrest : rest = []
      · rw [hrest] at hfirst
        exact .last hfirst
      · have hothers : formats.gzip.Members rest [] := by
          by_contra hothers
          exact hcut ⟨bytes,rest,hfits,hrest,.inl ⟨hcoding,hfirst,hothers⟩⟩
        rw [← List.append_nil bytes]
        exact .more hfirst hrest hothers
  | deflate =>
    rw [hcoding] at hok
    obtain ⟨hread,hfits⟩ := hok
    rcases formats.zlibRead.first hread with hnone | ⟨rest,hfirst⟩
    · exact absurd ⟨bytes,hfits,.inr ⟨hcoding,hnone,hread⟩⟩ htaken
    · refine .deflate ?_
      by_cases hrest : rest = []
      · rw [← hrest]
        exact hfirst
      · exact absurd ⟨bytes,rest,hfits,hrest,.inr ⟨hcoding,hfirst⟩⟩ hcut
  | other =>
    rw [hcoding] at hok
    exact hok.elim

theorem decoded_bounded (hok : decodeContentEncoding codecs body contentEncoding = .ok bytes) :
    bytes.length ≤ maxDecodedBytes ∧
      (Coding.of contentEncoding = .gzip ∨ Coding.of contentEncoding = .deflate →
        bytes.length ≤ max (64 * body.length) 4096) := by
  have hceiling : bytes.length ≤ ceiling body.length → bytes.length ≤ maxDecodedBytes ∧
      bytes.length ≤ max (64 * body.length) 4096 := fun h => Nat.le_min.mp h
  rw [decodeContentEncoding_eq_ok] at hok
  cases hcoding : Coding.of contentEncoding with
  | identity =>
    rw [hcoding] at hok
    rw [hok.1]
    exact ⟨hok.2,by simp⟩
  | gzip =>
    rw [hcoding] at hok
    exact ⟨(hceiling hok.2).1,fun _ => (hceiling hok.2).2⟩
  | deflate =>
    rw [hcoding] at hok
    exact ⟨(hceiling hok.2).1,fun _ => (hceiling hok.2).2⟩
  | other =>
    rw [hcoding] at hok
    exact hok.elim

/-- A first member in front of other bytes is returned, and is not the whole. -/
theorem CutShort.incomplete (h : CutShort formats body contentEncoding) :
    ∃ bytes, decodeContentEncoding codecs body contentEncoding = .ok bytes ∧
      ¬Decodes formats body (.of contentEncoding) bytes := by
  obtain ⟨content,rest,hfits,hrest,⟨hcoding,hfirst,hmore⟩ | ⟨hcoding,hfirst⟩⟩ := h
  · refine ⟨content,decodeContentEncoding_eq_ok.mpr ?_,?_⟩
    · rw [hcoding]
      exact ⟨formats.gzipRead body content rest hfirst,hfits⟩
    · rw [hcoding]
      intro hdecodes
      cases hdecodes with
      | gzip hmembers =>
        obtain ⟨others,happend,hothers⟩ := hmembers.behind hfirst hrest
        rw [List.self_eq_append_right.mp happend] at hothers
        exact hmore hothers
  · refine ⟨content,decodeContentEncoding_eq_ok.mpr ?_,?_⟩
    · rw [hcoding]
      exact ⟨formats.zlibRead body content rest hfirst,hfits⟩
    · rw [hcoding]
      intro hdecodes
      cases hdecodes with
      | deflate hwhole =>
        rw [hfirst] at hwhole
        exact hrest (Prod.mk.inj (Option.some.inj hwhole)).2

/-- A body without a first member has no representation. -/
theorem TakenWhole.incomplete (h : TakenWhole formats body contentEncoding) :
    ∃ bytes, decodeContentEncoding codecs body contentEncoding = .ok bytes ∧
      ¬Decodes formats body (.of contentEncoding) bytes := by
  obtain ⟨content,hfits,⟨hcoding,hnone,hread⟩ | ⟨hcoding,hnone,hread⟩⟩ := h
  · refine ⟨content,decodeContentEncoding_eq_ok.mpr ?_,?_⟩
    · rw [hcoding]
      exact ⟨hread,hfits⟩
    · rw [hcoding]
      intro hdecodes
      cases hdecodes with
      | gzip hmembers =>
        cases hmembers with
        | last hfirst => exact nomatch hnone.symm.trans hfirst
        | more hfirst _ _ => exact nomatch hnone.symm.trans hfirst
  · refine ⟨content,decodeContentEncoding_eq_ok.mpr ?_,?_⟩
    · rw [hcoding]
      exact ⟨hread,hfits⟩
    · rw [hcoding]
      intro hdecodes
      cases hdecodes with
      | deflate hwhole => exact nomatch hnone.symm.trans hwhole

/-- Decoding is all or nothing exactly when no first member that fits cuts the body short, and no
reader takes a body without a first member for whole. -/
theorem allOrNothing_iff (formats : Formats codecs) (body : Bytes)
    (contentEncoding : Option String) :
    AllOrNothing formats body contentEncoding ↔
      ¬CutShort formats body contentEncoding ∧ ¬TakenWhole formats body contentEncoding := by
  constructor
  · rintro ⟨hcomplete,_,_⟩
    constructor
    · intro hcut
      obtain ⟨bytes,hok,hother⟩ := hcut.incomplete
      exact hother (hcomplete bytes hok)
    · intro htaken
      obtain ⟨bytes,hok,hother⟩ := htaken.incomplete
      exact hother (hcomplete bytes hok)
  · rintro ⟨hcut,htaken⟩
    exact ⟨fun bytes => decodes_of_not_cutShort hcut htaken,fun bytes => decoded_bounded,
      fun bytes full hok hfull _ => (decodes_of_not_cutShort hcut htaken hok).unique hfull⟩

end

/-- The member of a gzip body whose content is `ok`. -/
def okMember : Bytes :=
  [31,139,8,0,0,0,0,0,0,3,203,207,6,0,71,221,220,121,2,0,0,0]

/-- One member off the front, as far as this member goes. -/
def okDecoder : Decoder := fun body =>
  if okMember <+: body then some (asBytes "ok",body.drop okMember.length) else none

def okCodecs : Codecs where
  gzip := fun body => (okDecoder body).elim ⟨[],true⟩ fun first => ⟨first.1,false⟩
  zlib := fun _ => ⟨[],true⟩
  forBom := fun _ => none
  forLabel := fun _ => none
  decodeWithoutBomHandling := fun _ _ => ("",true)
  decodeWithoutReplacement := fun _ _ => none

def okFormats : Formats okCodecs where
  gzip := okDecoder
  zlib := fun _ => none
  gzipRead := by
    intro body content rest h
    show (okDecoder body).elim _ _ = _
    rw [h]
    rfl
  zlibRead := fun _ _ _ h => by cases h

theorem okDecoder_member : okDecoder okMember = some (asBytes "ok",[]) := by decide
theorem okDecoder_members : okDecoder (okMember ++ okMember) = some (asBytes "ok",okMember) := by
  decide

/-- A body of one member is decoded whole. -/
theorem allOrNothing_member : AllOrNothing okFormats okMember (some "gzip") := by
  refine (allOrNothing_iff okFormats okMember (some "gzip")).mpr ⟨?_,?_⟩
  · rintro ⟨content,rest,_,hrest,⟨_,hfirst,_⟩ | ⟨_,hfirst⟩⟩
    · obtain ⟨_,rfl⟩ := Prod.mk.inj (Option.some.inj (okDecoder_member.symm.trans hfirst))
      exact hrest rfl
    · cases hfirst
  · rintro ⟨content,_,⟨_,hnone,_⟩ | ⟨hcoding,_⟩⟩
    · exact nomatch okDecoder_member.symm.trans hnone
    · revert hcoding
      decide

/-- A body of two members: the content of the first one is returned for the whole. -/
theorem decoded_first_member :
    decodeContentEncoding okCodecs (okMember ++ okMember) (some "gzip") = .ok (asBytes "ok") ∧
      Decodes okFormats (okMember ++ okMember) (.of (some "gzip")) (asBytes "ok" ++ asBytes "ok") ∧
      ¬AllOrNothing okFormats (okMember ++ okMember) (some "gzip") := by
  have hok : decodeContentEncoding okCodecs (okMember ++ okMember) (some "gzip") =
      .ok (asBytes "ok") :=
    decodeContentEncoding_eq_ok.mpr
      ⟨okFormats.gzipRead _ _ _ okDecoder_members,by decide⟩
  have hmembers : okDecoder.Members (okMember ++ okMember) (asBytes "ok" ++ asBytes "ok") :=
    .more okDecoder_members (by decide) (.last okDecoder_member)
  have hwhole : Decodes okFormats (okMember ++ okMember) (.of (some "gzip"))
      (asBytes "ok" ++ asBytes "ok") := .gzip hmembers
  refine ⟨hok,hwhole,fun h => ?_⟩
  have hsame := (h.complete _ hok).unique hwhole
  revert hsame
  decide

end HearthAI.Inspect
