import NixCache.Lib.Paging
import NixCache.Oci.Proofs.Sample
import NixCache.Oci.Tags
/-!
# What a tag listing returns

Against a registry that keeps to the protocol a listing has collected, before each page, the tags up
to its cursor.  It ends at the first page with fewer than 100 tags, whatever that page announces,
and takes an empty page after a full one for a failure.
-/

namespace NixCache.Oci

open NixCache.Lib NixCache.Lib.Result NixCache.Core NixCache.Lib.Action
open Program (Trace Follows)
open Paging (Catalog)
open TagList (pageSize maxTagPages maxTags)

/-! ## Page URLs -/

namespace Query

/-- The bytes that an encoded value stands for. -/
def decodeChars : List Char → List UInt8
  | '%' :: high :: low :: rest =>
      UInt8.ofNat (digit high * 16 + digit low) :: decodeChars rest
  | c :: rest => UInt8.ofNat c.toNat :: decodeChars rest
  | [] => []
where
  digit (c : Char) : Nat := if c.toNat < 58 then c.toNat - 48 else c.toNat - 55

/-- The characters stand for the byte. -/
def standsFor (byte : UInt8) : List Char → Bool
  | [c] => c != '%' && UInt8.ofNat c.toNat == byte
  | [percent, high, low] => percent == '%' &&
      UInt8.ofNat (decodeChars.digit high * 16 + decodeChars.digit low) == byte
  | _ => false

theorem decodeChars_encodeByte (byte : UInt8) (rest : List Char) :
    decodeChars (encodeByte byte ++ rest) = byte :: decodeChars rest := by
  have hcases := forall_uint8 (p := fun b => standsFor b (encodeByte b)) (by decide +kernel) byte
  unfold standsFor at hcases
  split at hcases
  · rename_i c hc
    simp only [Bool.and_eq_true, bne_iff_ne, beq_iff_eq] at hcases
    rw [hc, List.singleton_append, decodeChars, hcases.2]
    intro high low rest' hpercent
    exact absurd hpercent hcases.1
  · rename_i percent high low hc
    simp only [Bool.and_eq_true, beq_iff_eq] at hcases
    rw [hc, hcases.1, List.cons_append, List.cons_append, List.cons_append, List.nil_append,
      decodeChars, hcases.2]
  · cases hcases

theorem encodeValue_injective : Function.Injective encodeValue := by
  have hdecode : ∀ bytes : List UInt8, decodeChars (bytes.flatMap encodeByte) = bytes := by
    intro bytes
    induction bytes with
    | nil => rfl
    | cons byte bytes ih => rw [List.flatMap_cons, decodeChars_encodeByte, ih]
  intro s t h
  apply Str.asBytes_injective
  rw [← hdecode (Str.asBytes s), ← hdecode (Str.asBytes t), String.ofList_injective h]

end Query

/-- The URL of a page names its cursor. -/
theorem OciClient.tagsPageUrl_injective (client : OciClient) :
    Function.Injective client.tagsPageUrl := by
  have hfirst : ∀ cursor, client.tagsPageUrl none ≠ client.tagsPageUrl (some cursor) := by
    intro cursor h
    have hlength := congrArg String.length h
    simp only [tagsPageUrl, withLastCursor, String.length_append] at hlength
    have hquery : "?n=100".length < "?n=100&last=".length := by decide
    omega
  intro left right h
  cases left with
  | none =>
      cases right with
      | none => rfl
      | some cursor => exact absurd h (hfirst cursor)
  | some left =>
      cases right with
      | none => exact absurd h.symm (hfirst left)
      | some right =>
          have hvalue : Query.encodeValue left = Query.encodeValue right := by
            simpa [tagsPageUrl, withLastCursor, String.append_assoc] using h
          rw [Query.encodeValue_injective hvalue]

namespace ManifestClient

variable {X : OciCrates} {client : OciClient} {catalog : Catalog String} {cursor : Option String}
  {page : List String} {listing : Listing}

/-! ## One page -/

/-- The client reads this page in the reply. -/
def Carries (X : OciCrates) (client : OciClient) (cursor : Option String) (reply : Reply)
    (page : List String) : Prop :=
  ∃ fetched, readTagsReply client cursor reply = .ok fetched ∧ isSuccess fetched.status ∧
    readTags X fetched.body = .ok page

theorem status_ne_of_isSuccess {status : StatusCode} (h : isSuccess status = true) :
    status ≠ 401 := by
  rintro rfl
  exact absurd h (by decide)

namespace Listing

theorem mergeTags_eq {allTags tags : List String} (h : (allTags ++ tags).Pairwise (· < ·)) :
    mergeTags allTags tags = allTags ++ tags := by
  have hsorted : (allTags ++ tags).Pairwise (· ≤ ·) := h.imp le_of_lt
  have hdistinct : (allTags ++ tags).IsChain (· ≠ ·) := (h.imp ne_of_lt).isChain
  rw [mergeTags, hsorted.insertionSort_eq, List.destutter_of_isChain _ _ hdistinct]

/-- Where the loop stands after a page of the tags that remain. -/
def afterPage (listing : Listing) (page : List String) : Step :=
  if page.length < pageSize then .finished ⟨listing.allTags ++ page, listing.pagesFetched + 1⟩
  else .continued ⟨listing.allTags ++ page, page.getLast?, listing.pagesFetched + 1⟩

theorem addPage_eq (hseen : catalog.Seen listing.allTags listing.lastTag)
    (hpage : page <+: catalog.after listing.lastTag) (hne : page ≠ [])
    (hmax : listing.allTags.length + page.length ≤ maxTags) :
    listing.addPage client page = .ok (listing.afterPage page) := by
  have hmerge := mergeTags_eq (hseen.pairwise hpage)
  have hpos := List.length_pos_iff.mpr hne
  have hadvance : ¬ (page.getLast? = listing.lastTag ∨ page.getLast? = none) := by
    rintro (hlast | hnone)
    · -- the cursor is not after itself
      have hmem : page.getLast hne ∈ catalog.after listing.lastTag :=
        hpage.subset (List.getLast_mem hne)
      have hafter := (Paging.mem_after.mp hmem).2
      rw [← hlast, List.getLast?_eq_some_getLast hne] at hafter
      exact lt_irrefl _ (hafter _ rfl)
    · exact hne (List.getLast?_eq_none_iff.mp hnone)
  have hgrown : ¬ (listing.lastTag ≠ none ∧
      (listing.allTags ++ page).length = listing.allTags.length) := by
    rw [List.length_append]
    omega
  unfold addPage afterPage
  rw [if_neg hne]
  simp only [hmerge]
  rw [ensure_of _ hmax, ensure_of _ hgrown]
  split
  · rfl
  · rw [ensure_of _ hadvance]
    rfl

theorem addPage_ok {step : Step} (hseen : catalog.Seen listing.allTags listing.lastTag)
    (hpage : page <+: catalog.after listing.lastTag) (h : listing.addPage client page = .ok step) :
    step = listing.afterPage page := by
  by_cases hne : page = []
  · subst hne
    unfold addPage at h
    simp only [if_pos, bind_eq_ok, pure_eq_ok] at h
    obtain ⟨_, _, rfl⟩ := h
    simp [afterPage, list, pageSize]
  · have hmax : listing.allTags.length + page.length ≤ maxTags := by
      unfold addPage at h
      rw [if_neg hne] at h
      simp only [bind_eq_ok, ensure_eq_ok] at h
      obtain ⟨_, hmax, _⟩ := h
      exact hmax
    rw [addPage_eq hseen hpage hne hmax] at h
    exact (Except.ok.inj h).symm

theorem readPage_eq {fetched : Fetched} (hstatus : isSuccess fetched.status = true)
    (htags : readTags X fetched.body = .ok page) :
    listing.readPage X client fetched = listing.addPage client page := by
  unfold readPage
  rw [ensure_of _ hstatus, htags]
  rfl

theorem readPage_ok {fetched : Fetched} {step : Step}
    (h : listing.readPage X client fetched = .ok step) :
    isSuccess fetched.status = true ∧ ∃ page, readTags X fetched.body = .ok page ∧
      listing.addPage client page = .ok step := by
  simpa [readPage] using h

end Listing

/-! ## Requests -/

theorem runs_getTags {trace : Trace TagRequest Reply} {result : Except OciError Fetched} :
    (getTags client cursor).Runs trace result ↔
      ∃ reply, trace = [(.getTags cursor, reply)] ∧ result = readTagsReply client cursor reply :=
  Action.runs_request_ofExcept

/-- The exchange of a challenge does not ask for tags. -/
theorem not_mem_challenge {operation : String} {headers : HeaderMap}
    {trace : Trace TagRequest Reply} {result : Except OciError Unit}
    (h : (Action.embed TagRequest.other
      (requestChallengeForResponse X operation headers)).Runs trace result) (reply : Reply) :
    (.getTags cursor, reply) ∉ trace := by
  obtain ⟨inner, rfl, _⟩ := Action.Runs.of_embed h
  intro hmem
  obtain ⟨event, _, hevent⟩ := List.mem_map.mp hmem
  cases hevent

/-- What was fetched was read in the last reply.  An earlier one was a 401. -/
theorem runs_getTagsWithAuthRetry_ok {trace : Trace TagRequest Reply} {fetched : Fetched}
    (h : (getTagsWithAuthRetry X client cursor).Runs trace (.ok fetched)) :
    (∃ reply, (.getTags cursor, reply) ∈ trace ∧
        readTagsReply client cursor reply = .ok fetched) ∧
      ∀ other reply, (.getTags other, reply) ∈ trace → other = cursor ∧
        ∃ value, readTagsReply client cursor reply = .ok value ∧
          (value = fetched ∨ value.status = 401) := by
  obtain ⟨before, after, first, rfl, hfirst, hrest⟩ := Action.runs_bind_ok.mp h
  obtain ⟨reply, rfl, hreply⟩ := runs_getTags.mp hfirst
  by_cases hstatus : first.status = 401
  · rw [if_neg (not_not.mpr hstatus)] at hrest
    obtain ⟨challenge, last, _, rfl, hchallenge, hlast⟩ := Action.runs_bind_ok.mp hrest
    obtain ⟨again, rest, second, rfl, hsecond, haccept⟩ := Action.runs_bind_ok.mp hlast
    obtain ⟨reply', rfl, hreply'⟩ := runs_getTags.mp hsecond
    obtain ⟨_, _, rfl, hfetched⟩ := Action.runs_ofExcept_bind_ok.mp haccept
    cases hfetched
    refine ⟨⟨reply', by simp, hreply'.symm⟩, ?_⟩
    intro other asked hmem
    simp only [List.mem_append, List.mem_singleton, List.not_mem_nil, or_false, Prod.mk.injEq,
      TagRequest.getTags.injEq] at hmem
    rcases hmem with ⟨rfl, rfl⟩ | hmem | ⟨rfl, rfl⟩
    · exact ⟨rfl, first, hreply.symm, Or.inr hstatus⟩
    · exact absurd hmem (not_mem_challenge hchallenge asked)
    · exact ⟨rfl, fetched, hreply'.symm, Or.inl rfl⟩
  · rw [if_pos hstatus] at hrest
    obtain ⟨rfl, hfetched⟩ := hrest
    cases hfetched
    refine ⟨⟨reply, by simp, hreply.symm⟩, ?_⟩
    intro other asked hmem
    simp only [List.mem_append, List.mem_singleton, List.not_mem_nil, or_false, Prod.mk.injEq,
      TagRequest.getTags.injEq] at hmem
    obtain ⟨rfl, rfl⟩ := hmem
    exact ⟨rfl, fetched, hreply.symm, Or.inl rfl⟩

/-- A page that is served at once. -/
theorem Carries.runs_getTags {reply : Reply} (h : Carries X client cursor reply page) :
    ∃ fetched,
      (getTagsWithAuthRetry X client cursor).Runs [(.getTags cursor, reply)] (.ok fetched) ∧
      isSuccess fetched.status = true ∧ readTags X fetched.body = .ok page := by
  obtain ⟨fetched, hreply, hstatus, hread⟩ := h
  refine ⟨fetched, ?_, hstatus, hread⟩
  have hcall : (getTags client cursor).Runs [(.getTags cursor, reply)] (.ok fetched) :=
    ManifestClient.runs_getTags.mpr ⟨reply, rfl, hreply.symm⟩
  refine Action.Runs.bind hcall ?_
  rw [if_pos (status_ne_of_isSuccess hstatus)]
  exact ⟨rfl, rfl⟩

/-- An iteration that is served at once, and what comes after it. -/
theorem Carries.runs_run {remaining : Nat} {reply : Reply} {rest : Trace TagRequest Reply}
    {result : Except PaginationFailed TagList}
    (h : Carries X client listing.lastTag reply page)
    (hrest : (Action.ofExcept (listing.addPage client page) >>= fun step =>
      match step with
      | .finished list => pure list
      | .continued next => Listing.run X client remaining next).Runs rest result) :
    (Listing.run X client (remaining + 1) listing).Runs
      ((.getTags listing.lastTag, reply) :: rest) result := by
  obtain ⟨fetched, hfetch, hstatus, hread⟩ := h.runs_getTags
  refine Action.Runs.bind (Action.runs_mapErr_ok.mpr hfetch) ?_
  rw [Listing.readPage_eq hstatus hread]
  exact hrest

/-! ## Registries -/

/-- The reply has a `Link` header. -/
def announcesMore : Reply → Bool
  | .ok response => (response.headers.get "link").isSome
  | .error _ => false

/-- Each page of the trace is a page of at most 100 tags after its cursor, with a `Link` header if
it has fewer and leaves some out. -/
def Conforms (X : OciCrates) (client : OciClient) (catalog : Catalog String)
    (trace : Trace TagRequest Reply) : Prop :=
  ∀ cursor reply page, (.getTags cursor, reply) ∈ trace → Carries X client cursor reply page →
    catalog.IsPage pageSize cursor page (announcesMore reply)

/-- No page of the trace with fewer than 100 tags leaves some out. -/
def ShortPagesComplete (X : OciCrates) (client : OciClient) (catalog : Catalog String)
    (trace : Trace TagRequest Reply) : Prop :=
  ∀ cursor reply page, (.getTags cursor, reply) ∈ trace → Carries X client cursor reply page →
    page.length < pageSize → page = catalog.after cursor

theorem Carries.page_eq {reply : Reply} {fetched : Fetched} {page read : List String}
    (h : Carries X client cursor reply page)
    (hreply : readTagsReply client cursor reply = .ok fetched)
    (hread : readTags X fetched.body = .ok read) : page = read := by
  obtain ⟨value, hvalue, _, hpage⟩ := h
  rw [hreply, Except.ok.injEq] at hvalue
  subst hvalue
  exact Except.ok.inj (hpage.symm.trans hread)

/-- A registry that serves pages of 100 tags, the last with what remains.  It may ask for a token
before a page; the state says that it just did. -/
inductive FullService (X : OciCrates) (client : OciClient) (catalog : Catalog String) :
    Bool → TagRequest × Reply → Bool → Prop where
  | page {challenged : Bool} {cursor : Option String} {reply : Reply}
      (h : Carries X client cursor reply (catalog.fullPage pageSize cursor)) :
      FullService X client catalog challenged (.getTags cursor, reply) false
  | challenge {cursor : Option String} {reply : Reply} {fetched : Fetched}
      {challenge : BearerChallenge} (hreply : readTagsReply client cursor reply = .ok fetched)
      (hstatus : fetched.status = 401)
      (hchallenge : X.parseWwwAuthenticate fetched.headers = .ok (some challenge)) :
      FullService X client catalog false (.getTags cursor, reply) true
  | token {challenge : BearerChallenge} {reply : Reply} {fetched : Fetched}
      (hreply : readReply (fun _ => .ok []) reply = .ok fetched)
      (hstatus : isSuccess fetched.status) :
      FullService X client catalog true (.other (.refreshToken challenge), reply) true

/-- A listing against a registry that asks for no token. -/
theorem exists_runs_run {serve : Option String → Reply}
    (hserve : ∀ cursor, Carries X client cursor (serve cursor) (catalog.fullPage pageSize cursor))
    (remaining : Nat) (listing : Listing) :
    ∃ trace result, (Listing.run X client remaining listing).Runs trace result ∧
      Follows (FullService X client catalog) false trace false := by
  induction remaining generalizing listing with
  | zero => exact ⟨[], _, ⟨rfl, rfl⟩, rfl⟩
  | succ remaining ih =>
      have hserved := hserve listing.lastTag
      have hservice : ∀ rest, Follows (FullService X client catalog) false rest false →
          Follows (FullService X client catalog) false
            ((.getTags listing.lastTag, serve listing.lastTag) :: rest) false :=
        fun rest hrest => ⟨false, .page hserved, hrest⟩
      cases hstep : listing.addPage client (catalog.fullPage pageSize listing.lastTag) with
      | error error =>
          refine ⟨_, .error error, hserved.runs_run ?_, hservice [] rfl⟩
          rw [Action.ofExcept_bind_eq_error hstep]
          exact ⟨rfl, rfl⟩
      | ok step =>
          cases step with
          | finished list =>
              refine ⟨_, .ok list, hserved.runs_run ?_, hservice [] rfl⟩
              rw [Action.ofExcept_bind_eq hstep]
              exact ⟨rfl, rfl⟩
          | continued next =>
              obtain ⟨rest, result, hruns, hrest⟩ := ih next
              refine ⟨_, result, hserved.runs_run ?_, hservice rest hrest⟩
              rw [Action.ofExcept_bind_eq hstep]
              exact hruns

/-- Full pages keep to the protocol, and none with fewer than 100 tags leaves some out. -/
theorem fullService_conforms {trace : Trace TagRequest Reply} {start final : Bool}
    (h : Follows (FullService X client catalog) start trace final) :
    Conforms X client catalog trace ∧ ShortPagesComplete X client catalog trace := by
  have hfull : ∀ cursor reply page, (TagRequest.getTags cursor, reply) ∈ trace →
      Carries X client cursor reply page → page = catalog.fullPage pageSize cursor := by
    intro cursor reply page hmem hcarries
    obtain ⟨before, after, hstep⟩ := h.exists_step hmem
    cases hstep with
    | page hpage =>
        obtain ⟨fetched, hfetched, _, hread⟩ := hpage
        exact hcarries.page_eq hfetched hread
    | challenge hfetched hstatus _ =>
        obtain ⟨fetched, hfetched', hsuccess, _⟩ := hcarries
        rw [hfetched, Except.ok.injEq] at hfetched'
        subst hfetched'
        exact absurd hstatus (status_ne_of_isSuccess hsuccess)
  constructor
  · intro cursor reply page hmem hcarries
    rw [hfull cursor reply page hmem hcarries]
    exact Paging.isPage_fullPage _
  · intro cursor reply page hmem hcarries hlength
    rw [hfull cursor reply page hmem hcarries] at hlength ⊢
    exact (Paging.isPage_fullPage false).complete hlength rfl

/-! ## Pages that keep to the protocol -/

/-- The pages that one iteration was served. -/
theorem carries_of_runs {trace : Trace TagRequest Reply} {fetched : Fetched}
    (h : (getTagsWithAuthRetry X client cursor).Runs trace (.ok fetched))
    (hstatus : isSuccess fetched.status = true) (hread : readTags X fetched.body = .ok page) :
    (∃ reply, (.getTags cursor, reply) ∈ trace ∧ Carries X client cursor reply page) ∧
      ∀ other reply served, (.getTags other, reply) ∈ trace →
        Carries X client other reply served → other = cursor ∧ served = page := by
  obtain ⟨⟨reply, hmem, hreply⟩, hall⟩ := runs_getTagsWithAuthRetry_ok h
  refine ⟨⟨reply, hmem, fetched, hreply, hstatus, hread⟩, ?_⟩
  intro other asked served hasked hcarries
  obtain ⟨rfl, value, hvalue, hcases⟩ := hall other asked hasked
  refine ⟨rfl, ?_⟩
  rcases hcases with rfl | hunauthorized
  · exact hcarries.page_eq hvalue hread
  · obtain ⟨value', hvalue', hsuccess, _⟩ := hcarries
    rw [hvalue, Except.ok.injEq] at hvalue'
    subst hvalue'
    exact absurd hunauthorized (status_ne_of_isSuccess hsuccess)

/-- The induction is on the pages that are left, and its invariant is `Catalog.Seen`. -/
theorem runs_run_ok {remaining : Nat} {trace : Trace TagRequest Reply} {list : TagList}
    (h : (Listing.run X client remaining listing).Runs trace (.ok list))
    (hconforms : Conforms X client catalog trace)
    (hseen : catalog.Seen listing.allTags listing.lastTag) :
    list.tags = catalog.items ↔ ShortPagesComplete X client catalog trace := by
  induction remaining generalizing listing trace with
  | zero =>
      obtain ⟨_, hresult⟩ := h
      cases hresult
  | succ remaining ih =>
      obtain ⟨before, after, fetched, rfl, hfetch, hrest⟩ := Action.runs_bind_ok.mp h
      rw [Action.runs_mapErr_ok] at hfetch
      obtain ⟨step, hstep, hnext⟩ := Action.runs_ofExcept_bind_ok.mp hrest
      obtain ⟨hstatus, page, hread, hadd⟩ := Listing.readPage_ok hstep
      obtain ⟨⟨reply, hreply, hcarries⟩, hserved⟩ := carries_of_runs hfetch hstatus hread
      have hpage := hconforms _ reply page (List.mem_append_left after hreply) hcarries
      have hafter := Listing.addPage_ok hseen hpage.isFirst hadd
      subst hafter
      unfold Listing.afterPage at hnext
      by_cases hstopped : page.length < pageSize
      · rw [if_pos hstopped] at hnext
        -- the listing ends here, and this is the only page of the iteration
        obtain ⟨rfl, hlist⟩ := hnext
        cases hlist
        rw [hseen.eq_items_iff]
        constructor
        · intro hcomplete other asked served hmem hother _
          rw [List.append_nil] at hmem
          obtain ⟨rfl, rfl⟩ := hserved other asked served hmem hother
          exact hcomplete
        · intro hshort
          exact hshort _ reply page (List.mem_append_left [] hreply) hcarries hstopped
      · rw [if_neg hstopped] at hnext
        have hne : page ≠ [] := by
          rintro rfl
          exact hstopped (by decide)
        obtain ⟨rest, hafter⟩ := hpage.isFirst
        have hlast := List.getLast?_eq_some_getLast hne
        rw [hlast] at hnext
        have hnextSeen := (hseen.next hafter.symm hlast).1
        rw [ih hnext (fun other asked served hmem => hconforms other asked served
          (List.mem_append_right before hmem)) hnextSeen]
        constructor
        · intro hshort other asked served hmem hother hlength
          rcases List.mem_append.mp hmem with hmem | hmem
          · obtain ⟨rfl, rfl⟩ := hserved other asked served hmem hother
            exact absurd hlength hstopped
          · exact hshort other asked served hmem hother hlength
        · intro hshort other asked served hmem
          exact hshort other asked served (List.mem_append_right before hmem)

/-! ## Full pages -/

/-- The token is granted. -/
theorem runs_challenge_fullService {operation : String} {headers : HeaderMap}
    {challenge : BearerChallenge} {trace : Trace TagRequest Reply} {result : Except OciError Unit}
    {final : Bool} (hparsed : X.parseWwwAuthenticate headers = .ok (some challenge))
    (h : (Action.embed TagRequest.other
      (requestChallengeForResponse X operation headers)).Runs trace result)
    (hservice : Follows (FullService X client catalog) true trace final) :
    final = true ∧ result = .ok () := by
  obtain ⟨inner, rfl, hinner⟩ := Action.Runs.of_embed h
  have hsome : ∀ error : OciError, okOr error (some challenge) = .ok challenge := fun _ => rfl
  unfold requestChallengeForResponse at hinner
  rw [Action.ofExcept_bind_eq hparsed, Action.ofExcept_bind_eq (hsome _)] at hinner
  rcases Action.runs_bind.mp hinner with ⟨before, after, token, rfl, hsend, rfl, rfl⟩ |
    ⟨error, rfl, hsend⟩
  · obtain ⟨reply, rfl, hreply⟩ := runs_transportCall.mp hsend
    obtain ⟨state, hstep, rfl⟩ := hservice
    cases hstep with
    | token hfetched hstatus =>
        rw [id, ← hreply, Except.ok.injEq] at hfetched
        subst hfetched
        exact ⟨rfl, ensure_of _ hstatus⟩
  · obtain ⟨reply, rfl, hreply⟩ := runs_transportCall.mp hsend
    obtain ⟨state, hstep, rfl⟩ := hservice
    cases hstep with
    | token hfetched _ =>
        rw [id, ← hreply] at hfetched
        cases hfetched

/-- After the token was granted the page is served. -/
theorem runs_getTags_challenged {trace : Trace TagRequest Reply} {result : Except OciError Fetched}
    {final : Bool} (h : (getTags client cursor).Runs trace result)
    (hservice : Follows (FullService X client catalog) true trace final) :
    final = false ∧ ∃ fetched, result = .ok fetched ∧ isSuccess fetched.status = true ∧
      readTags X fetched.body = .ok (catalog.fullPage pageSize cursor) := by
  obtain ⟨reply, rfl, hreply⟩ := runs_getTags.mp h
  obtain ⟨state, hstep, rfl⟩ := hservice
  cases hstep with
  | page hpage =>
      obtain ⟨fetched, hfetched, hstatus, hread⟩ := hpage
      exact ⟨rfl, fetched, hreply.trans hfetched, hstatus, hread⟩

/-- Whether or not a token was asked for, the page is fetched. -/
theorem runs_getTags_fullService {trace : Trace TagRequest Reply}
    {result : Except OciError Fetched} {final : Bool}
    (h : (getTagsWithAuthRetry X client cursor).Runs trace result)
    (hservice : Follows (FullService X client catalog) false trace final) :
    final = false ∧ ∃ fetched, result = .ok fetched ∧ isSuccess fetched.status = true ∧
      readTags X fetched.body = .ok (catalog.fullPage pageSize cursor) := by
  rcases Action.runs_bind.mp h with ⟨before, after, first, rfl, hfirst, hrest⟩ |
    ⟨error, rfl, hfirst⟩
  · obtain ⟨reply, rfl, hreply⟩ := runs_getTags.mp hfirst
    obtain ⟨state, hstep, hafter⟩ := hservice
    cases hstep with
    | page hpage =>
        obtain ⟨fetched, hfetched, hstatus, hread⟩ := hpage
        rw [← hreply, Except.ok.injEq] at hfetched
        subst hfetched
        rw [if_pos (status_ne_of_isSuccess hstatus)] at hrest
        obtain ⟨rfl, rfl⟩ := hrest
        exact ⟨hafter, first, rfl, hstatus, hread⟩
    | challenge hfetched hstatus hchallenge =>
        rw [← hreply, Except.ok.injEq] at hfetched
        subst hfetched
        rw [if_neg (not_not.mpr hstatus)] at hrest
        rcases Action.runs_bind.mp hrest with ⟨token, last, _, rfl, htoken, hlast⟩ |
          ⟨error, rfl, htoken⟩
        · change Follows _ _ (token ++ last) final at hafter
          obtain ⟨middle, hmiddle, hlastService⟩ := Program.follows_append.mp hafter
          obtain ⟨rfl, _⟩ := runs_challenge_fullService hchallenge htoken hmiddle
          rcases Action.runs_bind.mp hlast with ⟨again, rest, second, rfl, hsecond, haccept⟩ |
            ⟨error, rfl, hsecond⟩
          · obtain ⟨middle, hmiddle, hrestService⟩ := Program.follows_append.mp hlastService
            obtain ⟨rfl, fetched, hfetched, hsuccess, hread⟩ :=
              runs_getTags_challenged hsecond hmiddle
            cases hfetched
            have haccepted := ensure_of (OciError.authenticationFailed "list tags" second.status
              "Bearer challenge retry was rejected") (status_ne_of_isSuccess hsuccess)
            rw [Action.ofExcept_bind_eq haccepted] at haccept
            obtain ⟨rfl, rfl⟩ := haccept
            exact ⟨hrestService, second, rfl, hsuccess, hread⟩
          · obtain ⟨_, fetched, hfetched, _⟩ := runs_getTags_challenged hsecond hlastService
            cases hfetched
        · obtain ⟨_, hresult⟩ := runs_challenge_fullService hchallenge htoken hafter
          cases hresult
  · obtain ⟨reply, rfl, hreply⟩ := runs_getTags.mp hfirst
    obtain ⟨state, hstep, rfl⟩ := hservice
    cases hstep with
    | page hpage =>
        obtain ⟨fetched, hfetched, _, _⟩ := hpage
        rw [← hreply] at hfetched
        cases hfetched
    | challenge hfetched _ _ =>
        rw [← hreply] at hfetched
        cases hfetched

/-- The tags seen and a full page are among the tags of the repository. -/
theorem length_add_fullPage_le (hseen : catalog.Seen listing.allTags listing.lastTag) :
    listing.allTags.length + (catalog.fullPage pageSize listing.lastTag).length ≤
      catalog.items.length := by
  calc listing.allTags.length + (catalog.fullPage pageSize listing.lastTag).length
      ≤ listing.allTags.length + (catalog.after listing.lastTag).length :=
        Nat.add_le_add_left (List.length_take_le' _ _) _
    _ = catalog.items.length := by rw [hseen, List.length_append]

/-- An iteration fails only on an empty page after a full one. -/
theorem readPage_fullService (client : OciClient) {fetched : Fetched}
    (hseen : catalog.Seen listing.allTags listing.lastTag)
    (hmax : catalog.items.length ≤ maxTags) (hstatus : isSuccess fetched.status = true)
    (hread : readTags X fetched.body = .ok (catalog.fullPage pageSize listing.lastTag)) :
    (listing.readPage X client fetched =
        .ok (listing.afterPage (catalog.fullPage pageSize listing.lastTag)) ∧
      (catalog.after listing.lastTag = [] → listing.lastTag = none)) ∨
    ((∃ error, listing.readPage X client fetched = .error error) ∧
      catalog.after listing.lastTag = [] ∧ listing.lastTag ≠ none) := by
  rw [Listing.readPage_eq hstatus hread]
  by_cases hempty : catalog.after listing.lastTag = []
  · have hpage : catalog.fullPage pageSize listing.lastTag = [] := by
      rw [Catalog.fullPage, hempty, List.take_nil]
    rw [hpage]
    by_cases hlast : listing.lastTag = none
    · refine Or.inl ⟨?_, fun _ => hlast⟩
      simp [Listing.addPage, Listing.list, Listing.afterPage, hlast, ensure, pageSize]
    · refine Or.inr ⟨?_, hempty, hlast⟩
      simp only [Listing.addPage, if_pos, ensure, if_neg hlast]
      exact ⟨_, rfl⟩
  · refine Or.inl ⟨?_, fun h => absurd h hempty⟩
    have hne : catalog.fullPage pageSize listing.lastTag ≠ [] := by
      rw [Catalog.fullPage]
      simpa [pageSize] using hempty
    have hbound := (length_add_fullPage_le hseen).trans hmax
    exact Listing.addPage_eq hseen (List.take_prefix _ _) hne hbound

/-- The induction is on the pages that are left, of which there are enough for all tags. -/
theorem runs_run_fullService {remaining : Nat} {trace : Trace TagRequest Reply}
    {result : Except PaginationFailed TagList} {final : Bool}
    (h : (Listing.run X client remaining listing).Runs trace result)
    (hservice : Follows (FullService X client catalog) false trace final)
    (hseen : catalog.Seen listing.allTags listing.lastTag)
    (hpages : (catalog.after listing.lastTag).length / 100 + 1 ≤ remaining)
    (hmax : catalog.items.length ≤ maxTags) :
    (∃ list, result = .ok list) ↔
      (listing.lastTag = none ∧ catalog.after listing.lastTag = []) ∨
        (catalog.after listing.lastTag).length % 100 ≠ 0 := by
  induction remaining generalizing listing trace with
  | zero => omega
  | succ remaining ih =>
      rcases Action.runs_bind.mp h with ⟨before, after, fetched, rfl, hfetch, hrest⟩ |
        ⟨error, rfl, hfetch⟩
      · rw [Action.runs_mapErr_ok] at hfetch
        obtain ⟨middle, hbefore, hafter⟩ := Program.follows_append.mp hservice
        obtain ⟨rfl, fetched', hfetched, hstatus, hread⟩ :=
          runs_getTags_fullService hfetch hbefore
        cases hfetched
        have hlength : (catalog.fullPage pageSize listing.lastTag).length =
            min 100 (catalog.after listing.lastTag).length := List.length_take
        rcases readPage_fullService client hseen hmax hstatus hread with
          ⟨hstep, hfirst⟩ | ⟨⟨error, hstep⟩, hempty, hlast⟩
        · rw [Action.ofExcept_bind_eq hstep] at hrest
          by_cases hshort : (catalog.after listing.lastTag).length < 100
          · have hstopped : (catalog.fullPage pageSize listing.lastTag).length < pageSize := by
              rw [hlength]
              exact lt_of_le_of_lt (Nat.min_le_right _ _) hshort
            rw [Listing.afterPage, if_pos hstopped] at hrest
            obtain ⟨_, rfl⟩ := hrest
            have hright : (listing.lastTag = none ∧ catalog.after listing.lastTag = []) ∨
                (catalog.after listing.lastTag).length % 100 ≠ 0 := by
              by_cases hempty : catalog.after listing.lastTag = []
              · exact Or.inl ⟨hfirst hempty, hempty⟩
              · have hpos := List.length_pos_iff.mpr hempty
                right
                omega
            simp only [hright, Except.ok.injEq, exists_eq']
          · have hfull : ¬ (catalog.fullPage pageSize listing.lastTag).length < pageSize := by
              rw [hlength, pageSize]
              omega
            have hne : catalog.fullPage pageSize listing.lastTag ≠ [] := by
              intro hnil
              rw [hnil] at hfull
              exact hfull (by decide)
            have hsplit : catalog.after listing.lastTag =
                catalog.fullPage pageSize listing.lastTag ++
                  (catalog.after listing.lastTag).drop pageSize :=
              (List.take_append_drop _ _).symm
            have hlast := List.getLast?_eq_some_getLast hne
            obtain ⟨hnext, hremain⟩ := hseen.next hsplit hlast
            rw [Listing.afterPage, if_neg hfull, hlast] at hrest
            have hdrop : (catalog.after (some ((catalog.fullPage pageSize
                listing.lastTag).getLast hne))).length =
                (catalog.after listing.lastTag).length - 100 := by
              rw [hremain, List.length_drop, pageSize]
            have hresult := ih hrest hafter hnext (by dsimp only; omega)
            rw [hresult]
            dsimp only
            have hcons : catalog.after listing.lastTag ≠ [] := by
              intro hnil
              rw [hnil] at hshort
              exact hshort (by decide)
            simp only [hdrop, hcons, and_false, reduceCtorEq, false_and, false_or, ne_eq]
            omega
        · rw [Action.ofExcept_bind_eq_error hstep] at hrest
          obtain ⟨_, rfl⟩ := hrest
          simp [hempty, hlast]
      · rw [Action.runs_mapErr] at hfetch
        obtain ⟨outcome, houtcome, hfetch⟩ := hfetch
        obtain ⟨_, fetched, rfl, _⟩ := runs_getTags_fullService hfetch hservice
        cases houtcome

/-! ## Sample repositories -/

def tagsDocument (tags : List String) : Json :=
  .obj [("name", .str "owner/repo/nix-cache"), ("tags", .arr (tags.map .str))]

/-- What a registry replies with these tags. -/
def tagsReply (headers : HeaderMap) (tags : List String) : Reply :=
  .ok ⟨200, headers, [.ok (IndexCodec.toVec (storingCrates sampleCrates) (tagsDocument tags))]⟩

theorem length_tagsDocument_le {tags : List String} (hcount : tags.length ≤ 100)
    (hlength : ∀ tag ∈ tags, tag.length ≤ 128) :
    (IndexCodec.toVec (storingCrates sampleCrates) (tagsDocument tags)).length ≤ 4194304 := by
  have hweight : ∀ tag ∈ tags, JsonText.weight (.str tag) ≤ 770 := by
    intro tag htag
    have hbound := hlength tag htag
    rw [JsonText.weight]
    omega
  have hitems := JsonText.weightItems_map_le hweight
  have hnames : 6 * "name".length + (6 * "owner/repo/nix-cache".length + 2) + 4 +
    6 * "tags".length ≤ 200 := by decide
  have hbytes := length_toVec_le sampleCrates (tagsDocument tags)
  simp only [tagsDocument, JsonText.weight, JsonText.weightFields] at hbytes ⊢
  omega

theorem readTags_tagsDocument (tags : List String) :
    readTags (storingCrates sampleCrates)
      (IndexCodec.toVec (storingCrates sampleCrates) (tagsDocument tags)) = .ok tags := by
  have hplain : JsonText.isPlain (tagsDocument tags) = true := by
    simp [tagsDocument, JsonText.isPlain, JsonText.arePlainFields]
  have hdocument : (storingCrates sampleCrates).fromSlice
      (IndexCodec.toVec (storingCrates sampleCrates) (tagsDocument tags)) =
        .ok (tagsDocument tags) := JsonText.parse_render hplain
  have hrecord : Json.record ["tags"] (tagsDocument tags) =
      .ok fun name => List.lookup name
        [("name", .str "owner/repo/nix-cache"), ("tags", .arr (tags.map .str))] :=
    Json.record_obj (by simp)
  have htags : Json.option (Json.list Json.text) (.arr (tags.map .str)) = .ok (some tags) := by
    rw [Json.option]
    · rw [Json.list_text]
      rfl
    · simp
  unfold readTags tagsFromJson
  rw [hdocument, bind_eq_ok]
  refine ⟨_, rfl, ?_⟩
  rw [hrecord, bind_eq_ok]
  refine ⟨_, rfl, ?_⟩
  rw [bind_eq_ok]
  exact ⟨some tags, htags, rfl⟩

/-- The client reads the tags of such a reply. -/
theorem carries_tagsReply (headers : HeaderMap) (tags : List String) (cursor : Option String)
    (hheaders : headers.get "content-length" = none) (hcount : tags.length ≤ 100)
    (hlength : ∀ tag ∈ tags, tag.length ≤ 128) :
    Carries (storingCrates sampleCrates) sampleClient cursor (tagsReply headers tags) tags := by
  have hbytes := length_tagsDocument_le hcount hlength
  have hcollect : collectBody (sampleClient.tagsPageUrl cursor)
      sampleClient.limits.maxManifestBytes
      ⟨200, headers, [.ok (IndexCodec.toVec (storingCrates sampleCrates) (tagsDocument tags))]⟩ =
        .ok (IndexCodec.toVec (storingCrates sampleCrates) (tagsDocument tags)) := by
    simp only [collectBody, checkContentLength, parseContentLength, hheaders, bind_eq_ok,
      ensure_eq_ok, pure_eq_ok, collectLimited, Result.foldM, appendChunk, List.nil_append,
      List.length_nil, Nat.zero_add, Except.ok.injEq]
    exact ⟨none, ⟨none, rfl, ⟨(), by simp, rfl⟩⟩, _, ⟨_, rfl, (), hbytes, rfl⟩, rfl⟩
  have hstatus : isSuccess 200 = true := by decide
  exact ⟨⟨200, headers, _⟩, readReply_eq_ok.mpr ⟨_, rfl, rfl, rfl, hcollect⟩, hstatus,
    readTags_tagsDocument tags⟩

/-- As many tags as wanted: `a`, `aa`, `aaa` and so on. -/
def sampleTag (n : Nat) : String := String.ofList (List.replicate (n + 1) 'a')

theorem sampleTag_lt {m n : Nat} (h : m < n) : sampleTag m < sampleTag n := by
  have hlt : ∀ (m n : Nat), m < n → List.replicate m 'a' < List.replicate n 'a' := by
    intro m
    induction m with
    | zero =>
        intro n hn
        obtain ⟨n, rfl⟩ := Nat.exists_eq_add_of_lt hn
        exact List.nil_lt_cons _ _
    | succ m ih =>
        intro n hn
        obtain ⟨k, rfl⟩ : ∃ k, n = k + 1 := ⟨n - 1, by omega⟩
        rw [List.replicate_succ, List.replicate_succ, List.cons_lt_cons_self]
        exact ih k (by omega)
  rw [String.lt_iff_toList_lt, sampleTag, sampleTag, String.toList_ofList, String.toList_ofList]
  exact hlt (m + 1) (n + 1) (by omega)

def sampleCatalog (count : Nat) : Catalog String where
  items := (List.range count).map sampleTag
  sorted := by
    rw [List.pairwise_map]
    exact List.pairwise_lt_range.imp sampleTag_lt

theorem length_sampleCatalog (count : Nat) : (sampleCatalog count).items.length = count := by
  simp [sampleCatalog]

/-- A registry with these tags that serves full pages. -/
theorem exists_runs_listTags (count : Nat) (h : count ≤ 128) :
    ∃ trace result,
      (listTags (storingCrates sampleCrates) sampleClient).Runs trace result ∧
      Follows (FullService (storingCrates sampleCrates) sampleClient (sampleCatalog count)) false
        trace false ∧
      ((∃ list, result = .ok list) ↔ count = 0 ∨ count % 100 ≠ 0) := by
  have hserve : ∀ cursor, Carries (storingCrates sampleCrates) sampleClient cursor
      (tagsReply [] ((sampleCatalog count).fullPage pageSize cursor))
      ((sampleCatalog count).fullPage pageSize cursor) := by
    intro cursor
    apply carries_tagsReply _ _ cursor rfl (List.length_take_le _ _)
    intro tag htag
    have hmem := (Paging.mem_after.mp (List.mem_of_mem_take htag)).1
    obtain ⟨n, hn, rfl⟩ := List.mem_map.mp hmem
    have hlt := List.mem_range.mp hn
    rw [sampleTag, String.length_ofList, List.length_replicate]
    omega
  obtain ⟨trace, result, hruns, hservice⟩ := exists_runs_run hserve maxTagPages {}
  have hafter : (sampleCatalog count).after none = (sampleCatalog count).items :=
    Paging.after_none
  have hcount := length_sampleCatalog count
  have hpages : (sampleCatalog count).items.length / 100 + 1 ≤ maxTagPages := by
    rw [hcount, maxTagPages]
    omega
  have hmax : (sampleCatalog count).items.length ≤ maxTags := by
    rw [hcount, maxTags]
    omega
  have hrun := runs_run_fullService hruns hservice (Paging.seen_start _)
    (by dsimp only; rwa [hafter]) hmax
  refine ⟨trace, result, hruns, hservice, ?_⟩
  dsimp only at hrun
  rw [hrun, hafter, ← List.length_eq_zero_iff, hcount]
  simp only [true_and]

/-! ## What a finished listing has -/

/-- A finished listing has every tag exactly if each of its pages with fewer than 100 tags did. -/
theorem listTags_complete_iff {trace : Trace TagRequest Reply} {list : TagList}
    (h : (listTags X client).Runs trace (.ok list)) (hconforms : Conforms X client catalog trace) :
    list.tags = catalog.items ↔ ShortPagesComplete X client catalog trace :=
  runs_run_ok h hconforms (Paging.seen_start catalog)

theorem listTags_complete_iff_oneTag :
    ∃ trace list,
      (listTags (storingCrates sampleCrates) sampleClient).Runs trace (.ok list) ∧
      Conforms (storingCrates sampleCrates) sampleClient (sampleCatalog 1) trace ∧
      list.tags = (sampleCatalog 1).items := by
  obtain ⟨trace, result, hruns, hservice, hfinishes⟩ :=
    exists_runs_listTags 1 (by decide)
  obtain ⟨hconforms, hshort⟩ := fullService_conforms hservice
  obtain ⟨list, rfl⟩ := hfinishes.mpr (by decide)
  exact ⟨trace, list, hruns, hconforms, (listTags_complete_iff hruns hconforms).mpr hshort⟩

/-- A page with one of two tags that announces the other: the listing ends with the first. -/
theorem announcedPage_not_fetched :
    ∃ trace list,
      (listTags (storingCrates sampleCrates) sampleClient).Runs trace (.ok list) ∧
      Conforms (storingCrates sampleCrates) sampleClient (sampleCatalog 2) trace ∧
      list.tags ≠ (sampleCatalog 2).items := by
  let link : HeaderMap :=
    [("link", Str.asBytes "</v2/owner/repo/nix-cache/tags/list?n=1&last=a>; rel=\"next\"")]
  have hcarries := carries_tagsReply link [sampleTag 0] none rfl (by decide) (by decide)
  have hfirst : [sampleTag 0] <+: (sampleCatalog 2).after none := by
    rw [Paging.after_none]
    exact ⟨[sampleTag 1], rfl⟩
  have hadd : ({} : Listing).addPage sampleClient [sampleTag 0] = .ok _ :=
    Listing.addPage_eq (Paging.seen_start (sampleCatalog 2)) hfirst (by simp) (by decide)
  refine ⟨[(.getTags none, tagsReply link [sampleTag 0])], ⟨[sampleTag 0], 1⟩, ?_, ?_, ?_⟩
  · have hstart : Carries (storingCrates sampleCrates) sampleClient ({} : Listing).lastTag
        (tagsReply link [sampleTag 0]) [sampleTag 0] := hcarries
    apply hstart.runs_run
    rw [Action.ofExcept_bind_eq hadd]
    exact ⟨rfl, rfl⟩
  · intro cursor reply page hmem hpage
    obtain ⟨rfl, rfl⟩ : cursor = none ∧ reply = tagsReply link [sampleTag 0] := by
      simpa using hmem
    obtain ⟨fetched, hfetched, _, hread⟩ := hcarries
    rw [hpage.page_eq hfetched hread]
    exact ⟨hfirst, by decide, fun _ hannounced => absurd hannounced (by decide)⟩
  · intro htags
    have hlength := congrArg List.length htags
    rw [length_sampleCatalog] at hlength
    exact absurd hlength (by decide)

/-! ## When a listing finishes -/

/-- Against a registry that serves full pages a listing finishes exactly if the last page is not an
empty page after a full one. -/
theorem listTags_finishes_iff {trace : Trace TagRequest Reply}
    {result : Except PaginationFailed TagList} {final : Bool}
    (h : (listTags X client).Runs trace result)
    (hservice : Follows (FullService X client catalog) false trace final)
    (hpages : catalog.items.length / pageSize + 1 ≤ maxTagPages)
    (hmax : catalog.items.length ≤ maxTags) :
    (∃ list, result = .ok list) ↔
      catalog.items.length = 0 ∨ catalog.items.length % pageSize ≠ 0 := by
  have hafter : catalog.after none = catalog.items := Paging.after_none
  have hrun := runs_run_fullService h hservice (Paging.seen_start catalog)
    (by dsimp only; rwa [hafter]) hmax
  dsimp only at hrun
  rw [hrun, hafter, List.length_eq_zero_iff, pageSize]
  simp only [true_and]

theorem listTags_finishes_iff_oneTag :
    ∃ trace list,
      (listTags (storingCrates sampleCrates) sampleClient).Runs trace (.ok list) ∧
      Follows (FullService (storingCrates sampleCrates) sampleClient (sampleCatalog 1)) false trace
        false := by
  obtain ⟨trace, result, hruns, hservice, _⟩ := exists_runs_listTags 1 (by decide)
  have hfinishes := listTags_finishes_iff hruns hservice
    (by rw [length_sampleCatalog]; decide) (by rw [length_sampleCatalog]; decide)
  obtain ⟨list, rfl⟩ := hfinishes.mpr (by rw [length_sampleCatalog]; decide)
  exact ⟨trace, list, hruns, hservice⟩

/-- With exactly a hundred tags the listing fails. -/
theorem hundredTags_not_listed :
    ∃ trace result,
      (listTags (storingCrates sampleCrates) sampleClient).Runs trace result ∧
      Follows (FullService (storingCrates sampleCrates) sampleClient (sampleCatalog 100)) false
        trace false ∧
      (sampleCatalog 100).items.length = 100 ∧ ¬ ∃ list, result = .ok list := by
  obtain ⟨trace, result, hruns, hservice, hfinishes⟩ :=
    exists_runs_listTags 100 (by decide)
  refine ⟨trace, result, hruns, hservice, length_sampleCatalog 100, ?_⟩
  rw [hfinishes]
  decide

end ManifestClient

end NixCache.Oci
