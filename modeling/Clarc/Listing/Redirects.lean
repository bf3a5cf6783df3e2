import Clarc.Listing.CompleteListing
import Clarc.Listing.RebuildDatabase

/-!
# Redirects during a listing

The same listing twice: as it would run, and with 307 responses put in before its pages.  A server
that answers page after page, any of which may fail, is `Bucket.redirecting`; its state counts the
pages that were received, and the redirects that come before the next one.

After a redirect the loop looks at the truncation flag of the page before.  Before the first page
there is none, and the flag is 0: `downloadList` returns success with what it has, which is nothing.
Behind a later redirect the URL of the next request is built from the `Location`, and it asks for
the same page as the bucket's own URL unless the key occurs in one of them and not in the other.

* `redirects_transparent_iff` — **redirects change nothing exactly when none comes before the first
  page and each URL built from a `Location` asks for the page that is next**.
-/

namespace Clarc

open Bytes Sqlite RemoteListOfFiles

/-- A response that sends the listing elsewhere. -/
structure Redirect where
  response : Response
  location : Bytes
  redirects : performGetOnBucket (some response) = .redirected location

/-- A response that ends it. -/
structure Failure where
  response : Option Response
  fails : ∀ l : Listing, l.next response = .done (.returned false l.files)

namespace Bucket

variable (b : Bucket) (c : AmazonCredentials) (useSsl : Bool)
  (failures : ℕ → Option Failure) (plan : ℕ → List Redirect)

/-- A server that has given `received` pages, and gives the redirects that are left before the next
one. -/
def redirecting : ℕ × List Redirect → Request → Option Response × (ℕ × List Redirect)
  | (received, d :: ds), _ => (some d.response, (received, ds))
  | (received, []), request =>
      (match failures received with
        | some failure => failure.response
        | none => some (b.answer request), (received + 1, plan (received + 1)))

/-- `downloadList` against that server, from the start. -/
def Lists (o : Outcome) (received : ℕ) : Prop :=
  ∃ fuel ds, downloadList c useSsl (b.redirecting failures plan) fuel (0, plan 0) {} =
    some (o, (received, ds))

/-- The key from which the listing without redirects asks for its page `i`. -/
def keyAt : ℕ → Bytes
  | 0 => []
  | i + 1 => b.lastKey (b.after (markerOf (getUrl c useSsl none (keyAt i) false)))

/-- What that page is taken from. -/
def remaining (i : ℕ) : List RemoteObject :=
  b.after (markerOf (getUrl c useSsl none (b.keyAt c useSsl i) false))

/-- The listing without redirects comes to page `i`. -/
def ComesTo (i : ℕ) : Prop :=
  ∀ j < i, failures j = none ∧ b.pageSize < (b.remaining c useSsl j).length

/-- The redirects before page `i`, if any, lead to that page. -/
def LeadsToPage (i : ℕ) : Prop :=
  b.ComesTo c useSsl failures i → failures i = none → ∀ d, (plan i).getLast? = some d →
    b.after (markerOf (getUrl c useSsl (some d.location) (b.keyAt c useSsl i) false)) =
      b.remaining c useSsl i

/-- The redirects do not show, in a listing that ends with `o` after `received` pages: not in the
outcome, and success is not returned nor the table touched without all the pages. -/
structure Transparent (o : Outcome) (received : ℕ) : Prop where
  same : b.Lists c useSsl failures plan o received
  whole : ∀ files n, b.Lists c useSsl failures plan (.returned true files) n → n = received
  kept : ∀ success files n, b.Lists c useSsl failures plan (.returned success files) n →
    n ≠ received → ∀ dryRun truncateFails storeFails resolved remote conn,
      ((rebuildDatabase dryRun truncateFails storeFails success resolved remote).runOn
        conn).2.committed = conn.committed

variable {b c useSsl failures plan} {l : Listing} {o : Outcome} {fuel i received : ℕ}
  {ds ds' : List Redirect}

/-! ## Iterations -/

/-- A redirect after the first page only changes the URL. -/
lemma downloadList_redirect (htrunc : l.isTruncated = true) (d : Redirect) :
    downloadList c useSsl (b.redirecting failures plan) (fuel + 1) (i, d :: ds) l =
      downloadList c useSsl (b.redirecting failures plan) fuel (i, ds)
        { l with url := some d.location } := by
  have hnext : l.next (some d.response) = .again { l with url := some d.location } := by
    rw [Listing.next, d.redirects]
    exact if_pos htrunc
  rw [downloadList, redirecting, hnext]

/-- A redirect before the first page ends the listing. -/
lemma downloadList_redirect_first (htrunc : l.isTruncated = false) (d : Redirect) :
    downloadList c useSsl (b.redirecting failures plan) (fuel + 1) (i, d :: ds) l =
      some (.returned true l.files, (i, ds)) := by
  have hnext : l.next (some d.response) = .done (.returned true l.files) := by
    rw [Listing.next, d.redirects]
    exact if_neg (by simp [htrunc])
  rw [downloadList, redirecting, hnext]

/-- A failing response ends it too. -/
lemma downloadList_failure {failure : Failure} (h : failures i = some failure) :
    downloadList c useSsl (b.redirecting failures plan) (fuel + 1) (i, []) l =
      some (.returned false l.files, (i + 1, plan (i + 1))) := by
  rw [downloadList, redirecting]
  simp only [h, failure.fails]

/-- A page, from what the request asks for. -/
lemma downloadList_page_at (h : failures i = none) {rest : List RemoteObject}
    (hrest : b.after (markerOf (getUrl c useSsl l.url l.lastKey false)) = rest) :
    downloadList c useSsl (b.redirecting failures plan) (fuel + 1) (i, []) l =
      if b.pageSize < rest.length then
        downloadList c useSsl (b.redirecting failures plan) fuel (i + 1, plan (i + 1))
          { url := none, lastKey := b.lastKey rest, isTruncated := true,
            files := l.files ++ (b.page rest).map RemoteObject.toFile }
      else some (.returned true (l.files ++ rest.map RemoteObject.toFile),
        (i + 1, plan (i + 1))) := by
  have hanswer : b.answer (l.request c useSsl) = b.response rest := by
    rw [answer, Listing.request, getRequest, hrest]
  rw [downloadList, redirecting]
  simp only [h, hanswer, next_response]
  split_ifs
  · rfl
  · rfl

/-- Redirects after the first page leave the last `Location` as the URL. -/
lemma downloadList_redirects : ∀ {ds : List Redirect} {l : Listing}, l.isTruncated = true →
    ∀ d, ds.getLast? = some d →
      downloadList c useSsl (b.redirecting failures plan) (fuel + ds.length) (i, ds) l =
        downloadList c useSsl (b.redirecting failures plan) fuel (i, [])
          { l with url := some d.location }
  | [], _, _, d, h => by cases h
  | [d'], l, htrunc, d, h => by
      obtain rfl := Option.some.inj h
      exact downloadList_redirect htrunc d'
  | d' :: d'' :: ds, l, htrunc, d, h => by
      rw [List.length_cons, ← Nat.add_assoc, downloadList_redirect htrunc]
      exact downloadList_redirects (l := { l with url := some d'.location }) htrunc d
        (by simpa using h)

/-! ## What every listing does -/

/-- Two listings from one state end alike. -/
lemma downloadList_unique {fuel' : ℕ} {w w₁ w₂ : ℕ × List Redirect} {o' : Outcome}
    (h : downloadList c useSsl (b.redirecting failures plan) fuel w l = some (o, w₁))
    (h' : downloadList c useSsl (b.redirecting failures plan) fuel' w l = some (o', w₂)) :
    o = o' ∧ w₁ = w₂ := by
  have hadd := downloadList_add h fuel'
  have hadd' := downloadList_add h' fuel
  rw [Nat.add_comm, hadd] at hadd'
  exact Prod.mk.inj (Option.some.inj hadd')

/-- Every listing returns with what it had collected, and more pages are received on the way. -/
lemma downloadList_returned : ∀ {fuel : ℕ} {i : ℕ} {ds : List Redirect} {l : Listing},
    downloadList c useSsl (b.redirecting failures plan) fuel (i, ds) l =
      some (o, (received, ds')) →
    (∃ success more, o = .returned success (l.files ++ more)) ∧ i ≤ received ∧
      (ds = [] → i < received)
  | 0, _, _, _, h => by cases h
  | fuel + 1, i, d :: ds, l, h => by
      rcases htrunc : l.isTruncated with _ | _
      · rw [downloadList_redirect_first htrunc] at h
        cases h
        exact ⟨⟨true, [], by simp⟩, le_rfl, by simp⟩
      · rw [downloadList_redirect htrunc] at h
        obtain ⟨hreturned, hle, -⟩ := downloadList_returned h
        exact ⟨hreturned, hle, by simp⟩
  | fuel + 1, i, [], l, h => by
      rcases hfail : failures i with _ | failure
      · rw [downloadList_page_at hfail rfl] at h
        split_ifs at h
        · obtain ⟨⟨success, more, ho⟩, hle, -⟩ := downloadList_returned h
          rw [List.append_assoc] at ho
          exact ⟨⟨success, _, ho⟩, by omega, by omega⟩
        · cases h
          exact ⟨⟨true, _, rfl⟩, by omega, by omega⟩
      · rw [downloadList_failure hfail] at h
        cases h
        exact ⟨⟨false, [], by simp⟩, by omega, by omega⟩

/-- What is returned shows where the next page was taken from. -/
lemma downloadList_head (hfail : failures i = none) {rest : List RemoteObject}
    (hrest : b.after (markerOf (getUrl c useSsl l.url l.lastKey false)) = rest)
    (h : downloadList c useSsl (b.redirecting failures plan) fuel (i, []) l =
      some (o, (received, ds))) :
    ∃ success more, o = .returned success (l.files ++ more) ∧
      more.head? = rest.head?.map RemoteObject.toFile := by
  cases fuel with
  | zero => cases h
  | succ fuel =>
      rw [downloadList_page_at hfail hrest] at h
      split_ifs at h with hmore
      · obtain ⟨⟨success, more, ho⟩, -⟩ := downloadList_returned h
        refine ⟨success, (b.page rest).map RemoteObject.toFile ++ more, ?_, ?_⟩
        · rw [ho, List.append_assoc]
        · have hpos := b.pageSize_pos
          obtain ⟨v, rest, rfl⟩ := List.exists_cons_of_length_pos (by omega : 0 < rest.length)
          obtain ⟨p, hp⟩ := Nat.exists_eq_succ_of_ne_zero hpos.ne'
          rw [page, hp]
          rfl
      · cases h
        exact ⟨true, _, rfl, by rw [List.head?_map]⟩

/-! ## Page by page -/

/-- The listing behind the redirects that come before a page. -/
def behind (ds : List Redirect) (l : Listing) : Listing :=
  match ds.getLast? with
  | none => l
  | some d => { l with url := some d.location }

/-- A listing that gets through redirects ends as the one behind them does. -/
lemma through_redirects (hflag : ds = [] ∨ l.isTruncated = true) :
    (∃ fuel ds', downloadList c useSsl (b.redirecting failures plan) fuel (i, ds) l =
        some (o, (received, ds'))) ↔
      ∃ fuel ds', downloadList c useSsl (b.redirecting failures plan) fuel (i, [])
        (behind ds l) = some (o, (received, ds')) := by
  rcases hlast : ds.getLast? with _ | d
  · obtain rfl := List.getLast?_eq_none_iff.mp hlast
    rfl
  · have htrunc : l.isTruncated = true := by
      refine hflag.resolve_left ?_
      rintro rfl
      cases hlast
    have hbehind : behind ds l = { l with url := some d.location } := by
      rw [behind, hlast]
    rw [hbehind]
    constructor
    · rintro ⟨fuel, ds', h⟩
      have hadd := downloadList_add h ds.length
      rw [downloadList_redirects htrunc d hlast] at hadd
      exact ⟨fuel, ds', hadd⟩
    · rintro ⟨fuel, ds', h⟩
      refine ⟨fuel + ds.length, ds', ?_⟩
      rw [downloadList_redirects htrunc d hlast, h]

lemma behind_next (hkey : l.lastKey = b.keyAt c useSsl i) (hurl : l.url = none)
    (hleads : b.LeadsToPage c useSsl failures plan i)
    (hcomes : b.ComesTo c useSsl failures i) (hfail : failures i = none) :
    b.after (markerOf (getUrl c useSsl (behind (plan i) l).url (behind (plan i) l).lastKey
      false)) = b.remaining c useSsl i := by
  rcases hlast : (plan i).getLast? with _ | d
  · rw [behind, hlast, hurl, hkey]
    rfl
  · have hpage := hleads hcomes hfail d hlast
    rw [behind, hlast]
    dsimp only
    rw [hkey, hpage]

/-- **From a page on, redirects change nothing exactly when they lead to the pages.** -/
theorem lists_iff_from (hurl : l.url = none) (hkey : l.lastKey = b.keyAt c useSsl i)
    (hcomes : b.ComesTo c useSsl failures i) (hflag : plan i = [] ∨ l.isTruncated = true)
    (hplain : downloadList c useSsl (b.redirecting failures fun _ => []) fuel (i, []) l =
      some (o, (received, []))) :
    (∃ fuel ds, downloadList c useSsl (b.redirecting failures plan) fuel (i, plan i) l =
        some (o, (received, ds))) ↔
      ∀ j, i ≤ j → b.LeadsToPage c useSsl failures plan j := by
  induction fuel generalizing i l with
  | zero => cases hplain
  | succ fuel ih =>
      rw [through_redirects hflag]
      have hbehind : (behind (plan i) l).files = l.files ∧
          (behind (plan i) l).lastKey = l.lastKey := by
        unfold behind
        split
        · exact ⟨rfl, rfl⟩
        · exact ⟨rfl, rfl⟩
      -- a page that the listing does not come to sets no condition
      have hbeyond : ∀ {j}, i < j →
          (failures i ≠ none ∨ (b.remaining c useSsl i).length ≤ b.pageSize) →
          b.LeadsToPage c useSsl failures plan j := by
        intro j hij hend hcomes'
        obtain ⟨hnone, hmore⟩ := hcomes' i hij
        rcases hend with hend | hend
        · exact absurd hnone hend
        · exact absurd hmore (not_lt.mpr hend)
      rcases hfail : failures i with _ | failure
      · have hrest : b.after (markerOf (getUrl c useSsl l.url l.lastKey false)) =
            b.remaining c useSsl i := by
          rw [hurl, hkey]
          rfl
        -- through redirects that lead to the page, both go on alike
        have hstep : b.LeadsToPage c useSsl failures plan i →
            ((∃ fuel ds, downloadList c useSsl (b.redirecting failures plan) fuel (i, [])
              (behind (plan i) l) = some (o, (received, ds))) ↔
                ∀ j, i < j → b.LeadsToPage c useSsl failures plan j) := by
          intro hleads
          have hnext := behind_next hkey hurl hleads hcomes hfail
          rw [downloadList_page_at hfail hrest] at hplain
          split_ifs at hplain with hmore
          · have hcomes' : b.ComesTo c useSsl failures (i + 1) := by
              intro j hj
              rcases (Nat.lt_succ_iff.mp hj).eq_or_lt with rfl | hlt
              · exact ⟨hfail, hmore⟩
              · exact hcomes j hlt
            rw [show (∀ j, i < j → _) ↔ ∀ j, i + 1 ≤ j → _ from Iff.rfl,
              ← ih rfl rfl hcomes' (Or.inr rfl) hplain]
            constructor
            · rintro ⟨fuel', ds, h⟩
              cases fuel' with
              | zero => cases h
              | succ fuel' =>
                  rw [downloadList_page_at hfail hnext, if_pos hmore, hbehind.1] at h
                  exact ⟨fuel', ds, h⟩
            · rintro ⟨fuel', ds, h⟩
              refine ⟨fuel' + 1, ds, ?_⟩
              rw [downloadList_page_at hfail hnext, if_pos hmore, hbehind.1]
              exact h
          · cases hplain
            constructor
            · intro _ j hij
              exact hbeyond hij (Or.inr (not_lt.mp hmore))
            · intro _
              refine ⟨1, plan (i + 1), ?_⟩
              rw [downloadList_page_at hfail hnext, if_neg hmore, hbehind.1]
        constructor
        · rintro ⟨fuel', ds, h⟩
          -- both lists begin with the page they were given here
          have hleads : b.LeadsToPage c useSsl failures plan i := by
            intro _ _ d hlast
            obtain ⟨success, more, ho, hmore⟩ := downloadList_head hfail hrest hplain
            obtain ⟨success', more', ho', hmore'⟩ := downloadList_head hfail rfl h
            rw [ho, hbehind.1, Outcome.returned.injEq, List.append_cancel_left_eq] at ho'
            rw [← ho'.2, hmore] at hmore'
            have hsame := Keyset.eq_of_heads b.sorted.nodup (b.sorted.after_suffix _)
              (b.sorted.after_suffix _) (Option.map_injective toFile_injective hmore')
            rw [hbehind.2, hkey, behind, hlast] at hsame
            exact hsame.symm
          intro j hij
          rcases hij.eq_or_lt with rfl | hlt
          · exact hleads
          · exact (hstep hleads).mp ⟨fuel', ds, h⟩ j hlt
        · intro hall
          exact (hstep (hall i le_rfl)).mpr fun j hij => hall j hij.le
      · rw [downloadList_failure hfail] at hplain
        cases hplain
        constructor
        · intro _ j hij
          rcases hij.eq_or_lt with rfl | hlt
          · intro _ hnone
            rw [hfail] at hnone
            cases hnone
          · exact hbeyond hlt (Or.inl (by simp [hfail]))
        · intro _
          refine ⟨1, plan (i + 1), ?_⟩
          rw [downloadList_failure hfail, hbehind.1]

/-! ## The condition -/

lemma lists_unique {n : ℕ} {o' : Outcome} (h : b.Lists c useSsl failures plan o received)
    (h' : b.Lists c useSsl failures plan o' n) : o = o' ∧ received = n := by
  obtain ⟨fuel, ds, h⟩ := h
  obtain ⟨fuel', ds', h'⟩ := h'
  obtain ⟨ho, hw⟩ := downloadList_unique h h'
  exact ⟨ho, congrArg Prod.fst hw⟩

/-- After a redirect before the first page the listing has succeeded with nothing. -/
lemma lists_nothing {d : Redirect} (h : plan 0 = d :: ds) :
    b.Lists c useSsl failures plan (.returned true []) 0 := by
  refine ⟨1, ds, ?_⟩
  rw [h]
  exact downloadList_redirect_first rfl d

/-- A listing without redirects leaves none behind. -/
lemma lists_plain (h : b.Lists c useSsl failures (fun _ => []) o received) :
    ∃ fuel, downloadList c useSsl (b.redirecting failures fun _ => []) fuel (0, []) {} =
      some (o, (received, [])) := by
  obtain ⟨fuel, ds, h⟩ := h
  have hnone : ∀ {fuel i : ℕ} {l : Listing}, downloadList c useSsl
      (b.redirecting failures fun _ => []) fuel (i, []) l = some (o, (received, ds)) → ds = [] := by
    intro fuel
    induction fuel with
    | zero =>
        intro i l h
        cases h
    | succ fuel ih =>
        intro i l h
        rcases hfail : failures i with _ | failure
        · rw [downloadList_page_at hfail rfl] at h
          split_ifs at h
          · exact ih h
          · cases h
            rfl
        · rw [downloadList_failure hfail] at h
          cases h
          rfl
  obtain rfl := hnone h
  exact ⟨fuel, h⟩

/-- **When redirects do not show**: when none comes before the first page, and those before a later
page lead to that page. -/
theorem redirects_transparent_iff
    (hplain : b.Lists c useSsl failures (fun _ => []) o received) :
    b.Transparent c useSsl failures plan o received ↔
      plan 0 = [] ∧ ∀ i, b.LeadsToPage c useSsl failures plan i := by
  obtain ⟨fuel, hfuel⟩ := lists_plain hplain
  have hpos : 0 < received := (downloadList_returned hfuel).2.2 rfl
  have hiff : ∀ h : plan 0 = [], b.Lists c useSsl failures plan o received ↔
      ∀ i, b.LeadsToPage c useSsl failures plan i := by
    intro h
    have hfrom : _ ↔ ∀ j, 0 ≤ j → b.LeadsToPage c useSsl failures plan j :=
      lists_iff_from rfl rfl (by intro j hj; cases hj) (Or.inl h) hfuel
    simpa [Lists] using hfrom
  constructor
  · intro htransparent
    have hfirst : plan 0 = [] := by
      rcases hplan : plan 0 with _ | ⟨d, ds⟩
      · rfl
      · have hreceived := (lists_unique htransparent.same (lists_nothing hplan)).2
        omega
    exact ⟨hfirst, (hiff hfirst).mp htransparent.same⟩
  · rintro ⟨hfirst, hleads⟩
    have hsame := (hiff hfirst).mpr hleads
    exact {
      same := hsame
      whole := fun files n h => (lists_unique hsame h).2.symm
      kept := fun success files n h hne => absurd (lists_unique hsame h).2.symm hne }

/-- A redirect to another region. -/
def sampleRedirect : Redirect where
  response := { code := .ok, responseCode := 307, headers := ascii ("HTTP/1.1 307 Moved\r\n" ++
    "Location: https://backup.s3-eu-west-1.amazonaws.com/\r\n\r\n") }
  location := ascii "https://backup.s3-eu-west-1.amazonaws.com/"
  redirects := rfl

lemma firstPhoto_ne : ascii "photos/a b" ≠ [] := by decide

lemma secondPhoto_ne : ascii "photos/c" ≠ [] := by decide

lemma photos_lt : ascii "photos/a b" < ascii "photos/c" := by decide

/-- Two photos, each on a page of its own. -/
def samplePhotos : Bucket :=
  sampleBucket (ascii "photos/a b") (ascii "photos/c") firstPhoto_ne secondPhoto_ne photos_lt

lemma samplePhotos_plain : samplePhotos.Lists sampleCredentials true (fun _ => none) (fun _ => [])
    (.returned true (samplePhotos.objects.map RemoteObject.toFile)) 2 := by
  refine ⟨2, [], ?_⟩
  rfl

theorem redirects_transparent_iff_sample :
    samplePhotos.Transparent sampleCredentials true (fun _ => none)
      (fun i => if i = 1 then [sampleRedirect] else [])
      (.returned true (samplePhotos.objects.map RemoteObject.toFile)) 2 := by
  refine (redirects_transparent_iff samplePhotos_plain).mpr ⟨rfl, ?_⟩
  intro i _ _ d hlast
  dsimp only at hlast
  split_ifs at hlast with hi
  · subst hi
    obtain rfl := Option.some.inj hlast
    rfl
  · cases hlast

/-- A redirect before the first page: the listing succeeds with nothing, and the table is
emptied. -/
theorem first_redirect_empties_table :
    samplePhotos.Lists sampleCredentials true (fun _ => none) (fun _ => [])
        (.returned true (samplePhotos.objects.map RemoteObject.toFile)) 2 ∧
      samplePhotos.Lists sampleCredentials true (fun _ => none)
        (fun i => if i = 0 then [sampleRedirect] else []) (.returned true []) 0 ∧
      ((rebuildDatabase false noFaults (fun _ => noFaults) true true []).runOn
        { committed := AList.singleton (ascii "photos/a b")
            ⟨ascii "900150983cd24fb0d6963f7d28e17f72", 1000⟩ }).2.committed = ∅ :=
  ⟨samplePhotos_plain, lists_nothing rfl, rfl⟩

end Bucket

end Clarc
