import Mathlib.Data.List.Basic
import OrgClient.Client.Query
import OrgClient.Proofs.Client.Call

namespace OrgClient

open Http (Config Exchange Message Network Request Response Sending Session)
open Json (Decoder)
open Org (Page)
set_option autoImplicit true

namespace Org.Page

/-- No page is to be asked for behind a page. -/
def IsLast (p : Page α) : Prop :=
  p.done = true ∨ p.nextUrl = none

/-- A page of a query that is not done, and where the next one is. -/
structure Link (α : Type) where
  page : Page α
  url : String
  undone : page.done = false
  next : page.nextUrl = some url

theorem next?_of_isLast {p : Page α} (h : p.IsLast) : p.next? = none := by
  rw [next?]
  rcases h with h | h
  · rw [if_pos h]
  · rw [h, ite_self]

theorem Link.next?_page (l : Link α) : l.page.next? = some l.url := by
  rw [next?, l.undone, if_neg Bool.false_ne_true, l.next]

theorem isLast_or_link (p : Page α) : p.IsLast ∨ ∃ l : Link α, l.page = p := by
  cases hd : p.done with
  | true => exact .inl (.inl hd)
  | false =>
    cases hn : p.nextUrl with
    | none => exact .inl (.inr hn)
    | some url => exact .inr ⟨⟨p, url, hd, hn⟩, rfl⟩

end Org.Page

open Org.Page (Link)

/-- The rows of some pages and of the page behind them, if there is one. -/
def gathered (pages : List (Page α)) (x : Except Http.Error (Page α)) : Except Error (List α) :=
  (x.mapError Error.ofHttp).map fun last => (pages ++ [last]).flatMap Page.records

theorem gathered_nil_ok (last : Page α) : gathered [] (.ok last) = .ok last.records :=
  congrArg Except.ok (List.append_nil last.records)

theorem gathered_cons (page : Page α) (pages : List (Page α)) (x : Except Http.Error (Page α)) :
    gathered (page :: pages) x = (gathered pages x).map (page.records ++ ·) := by
  cases x <;> rfl

namespace Http.Network

/-- The network behind requests that are exchanged with it one after the other. -/
def after (n : Network) (c : Config) (rs : List Request) : Network :=
  rs.foldl (fun n r => (n.exchange c r).2) n

theorem after_cons (n : Network) (c : Config) (r : Request) (rs : List Request) :
    n.after c (r :: rs) = (n.exchange c r).2.after c rs :=
  rfl

/-- What lies between two states of the network are exchanges, one of each request, in their order.
-/
def Exchanges (c : Config) (rs : List Request) (n n' : Network) : Prop :=
  ∃ es : List Exchange, es.map Exchange.request = rs ∧ (∀ e ∈ es, ∃ o, e.Ends c o) ∧
    n'.log = n.log ++ es.flatMap Exchange.entries

theorem exchanges_after (n : Network) (c : Config) (rs : List Request) :
    Exchanges c rs n (n.after c rs) := by
  induction rs generalizing n with
  | nil => exact ⟨[], rfl, List.forall_mem_nil _, (List.append_nil _).symm⟩
  | cons r rs ih =>
    obtain ⟨e, rfl, he, hl⟩ := n.exists_exchange c r
    obtain ⟨es, rfl, hes, hls⟩ := ih (n.exchange c e.request).2
    refine ⟨e :: es, rfl, List.forall_mem_cons.mpr ⟨⟨_, he⟩, hes⟩, ?_⟩
    rw [after_cons, hls, hl, List.append_assoc, List.flatMap_cons]

theorem handed_after (n : Network) (c : Config) (rs : List Request) :
    (n.after c rs).handed = n.handed ++ rs := by
  induction rs generalizing n with
  | nil => exact (List.append_nil _).symm
  | cons r rs ih =>
    rw [after_cons, ih, handed_exchange, List.append_assoc]
    rfl

theorem after_concat_of_unprepared {c : Config} (h : r.prepared c = .error e) (n : Network)
    (rs : List Request) : n.after c (rs ++ [r]) = (n.after c rs).hand r := by
  rw [after, List.foldl_append]
  exact congrArg Prod.snd (exchange_of_unprepared h _)

theorem length_script_send_le (n : Network) (m : Message) :
    (n.send m).2.script.length ≤ n.script.length := by
  unfold send
  split
  · exact List.length_tail ▸ Nat.sub_le _ _
  · exact Nat.le_refl _

/-- An answer of success was laid down in the script, and is used up. -/
theorem length_script_send_lt {n : Network} {m : Message}
    (h : (Sending.mk m (n.send m).1).outcome >>= Response.checked = .ok response) :
    (n.send m).2.script.length < n.script.length := by
  unfold send at h ⊢
  split at h
  · rename_i hl
    rw [if_pos hl]
    cases hs : n.script with
    | nil =>
      rw [hs] at h
      cases h
    | cons conduct script => exact Nat.lt_succ_self script.length
  · cases h

theorem length_script_deliver_lt {k : Nat} {m : Message} {n : Network}
    (h : (deliver k m n).1.outcome >>= Response.checked = .ok response) :
    (deliver k m n).2.script.length < n.script.length := by
  induction k generalizing m n with
  | zero => exact length_script_send_lt h
  | succ k ih =>
    have hs := n.length_script_send_le m
    unfold deliver at h ⊢
    split at h
    · rename_i r hd
      exact Nat.lt_of_lt_of_le (ih h) hs
    · exact length_script_send_lt h

theorem length_script_exchange_lt {n : Network} (h : (n.exchange c r).1 = .ok response) :
    (n.exchange c r).2.script.length < n.script.length := by
  cases hm : r.prepared c with
  | error e =>
    rw [exchange_of_unprepared hm] at h
    cases h
  | ok m =>
    rw [exchange_of_prepared hm] at h ⊢
    exact length_script_deliver_lt (n := n.hand r) h

end Http.Network

namespace Connection

def pageRequest (c : Connection) (url : String) : Request :=
  c.request .get (c.url url)

/-- The requests for the page at a URL and for those behind it. -/
def pageRequests (c : Connection) (url : String) (links : List (Link α)) : List Request :=
  c.pageRequest url :: links.map fun l => c.pageRequest l.url

theorem pageRequests_cons (c : Connection) (url : String) (l : Link α) (links : List (Link α)) :
    c.pageRequests url (l :: links) = c.pageRequest url :: c.pageRequests l.url links :=
  rfl

/-- What is read from the answers to requests that are made one after the other. -/
def answers (c : Connection) (d : Decoder α) : List Request → Network → List (Except Http.Error α)
  | [], _ => []
  | r :: rs, n => c.asked d r n :: c.answers d rs (n.exchange c.config r).2

theorem answers_append (c : Connection) (d : Decoder α) (rs rs' : List Request) (n : Network) :
    c.answers d (rs ++ rs') n = c.answers d rs n ++ c.answers d rs' (n.after c.config rs) := by
  induction rs generalizing n with
  | nil => rfl
  | cons r rs ih => exact congrArg (c.asked d r n :: ·) (ih _)

theorem length_script_of_asked {c : Connection} (h : c.asked d r n = .ok a) :
    (n.exchange c.config r).2.script.length < n.script.length := by
  obtain ⟨response, hr, -⟩ := bind_eq_ok_iff.mp h
  exact Network.length_script_exchange_lt hr

variable {url : String} (c : Connection) (row : Decoder α)

theorem queryMore_run {x : Except Http.Error (Page α)} {s : Session}
    (ha : c.asked (Page.decode row) (c.pageRequest url) s.network = x) :
    ∃ s' : Session, s'.network = (s.network.exchange c.config (c.pageRequest url)).2 ∧
      (c.queryMore row url).run s = (x.mapError Error.ofHttp, s') := by
  obtain ⟨ho, hn⟩ := c.sendJson_run (Page.decode row) (c.pageRequest url) s
  have hq : c.queryMore row url = .ofCall (c.sendJson (Page.decode row) (c.pageRequest url)) := rfl
  rw [hq, Work.run_ofCall, ← ha, ← ho]
  exact ⟨_, hn, rfl⟩

theorem followPages_of_isLast {page : Page α} (h : page.IsLast) (pages : Nat) :
    c.followPages row pages page = pure page.records := by
  cases pages with
  | zero => rfl
  | succ pages => rw [followPages, page.next?_of_isLast h]

theorem followPages_error {page : Page α} {s : Session} (hp : page.next? = some url)
    (ha : c.asked (Page.decode row) (c.pageRequest url) s.network = .error e) (pages : Nat) :
    ((c.followPages row (pages + 1) page).run s).1 = .error (.ofHttp e) ∧
      ((c.followPages row (pages + 1) page).run s).2.network =
        (s.network.exchange c.config (c.pageRequest url)).2 := by
  obtain ⟨s', hn, hr⟩ := c.queryMore_run row ha
  rw [followPages, hp]
  dsimp only
  rw [run_bind_state, hr]
  exact ⟨rfl, hn⟩

theorem followPages_ok {page next : Page α} {s : Session} (hp : page.next? = some url)
    (ha : c.asked (Page.decode row) (c.pageRequest url) s.network = .ok next) (pages : Nat) :
    ∃ s' : Session, s'.network = (s.network.exchange c.config (c.pageRequest url)).2 ∧
      (c.followPages row (pages + 1) page).run s =
        (((c.followPages row pages next).run s').1.map (page.records ++ ·),
          ((c.followPages row pages next).run s').2) := by
  obtain ⟨s', hn, hr⟩ := c.queryMore_run row ha
  rw [followPages, hp]
  dsimp only
  rw [run_bind_state, hr]
  exact ⟨((Http.note .debug "Fetched query page"
    [("fetched", .count next.records.length), ("total", .count next.totalSize)]).run s').2, hn,
    run_bind_pure (c.followPages row pages next) (page.records ++ ·) _⟩

/-- A query for all pages asks for the first one, and follows it as far as the script goes. -/
theorem queryAll_eq (soql : String) (s : Session) :
    (c.queryAll row soql).run s =
      match (c.queryMore row (c.askUrl "query" soql)).run s with
      | (.ok first, s') => (c.followPages row (s'.network.script.length + 1) first).run s'
      | (.error e, s') => (.error e, s') := by
  have hq : c.query row soql = c.queryMore row (c.askUrl "query" soql) := rfl
  rw [queryAll, hq, run_bind_state]
  rcases (c.queryMore row (c.askUrl "query" soql)).run s with ⟨_ | first, s'⟩ <;> rfl

/-- Pages were asked for from a URL on, and answered by pages with links and then by a last page or
an error. -/
structure Answered (n : Network) (url : String) (links : List (Link α))
    (x : Except Http.Error (Page α)) : Prop where
  answers : c.answers (Page.decode row) (c.pageRequests url links) n =
    links.map (.ok ·.page) ++ [x]
  last : ∀ page, x = .ok page → page.IsLast

namespace Answered

variable {c row} {links : List (Link α)} {x : Except Http.Error (Page α)} {n : Network}

theorem head (h : Answered c row n url [] x) :
    c.asked (Page.decode row) (c.pageRequest url) n = x :=
  List.head_eq_of_cons_eq h.answers

theorem head_link {l : Link α} (h : Answered c row n url (l :: links) x) :
    c.asked (Page.decode row) (c.pageRequest url) n = .ok l.page :=
  List.head_eq_of_cons_eq h.answers

theorem tail {l : Link α} (h : Answered c row n url (l :: links) x) :
    Answered c row (n.exchange c.config (c.pageRequest url)).2 l.url links x :=
  ⟨List.tail_eq_of_cons_eq h.answers, h.last⟩

/-- However the network answers, there is an end to the pages, as each takes an answer from its
script. -/
theorem exists_of_network (c : Connection) (row : Decoder α) (n : Network) (url : String) :
    ∃ links x, Answered c row n url links x := by
  induction hl : n.script.length using Nat.strongRecOn generalizing n url with
  | ind length ih =>
    cases ha : c.asked (Page.decode row) (c.pageRequest url) n with
    | error e => exact ⟨[], .error e, congrArg (· :: []) ha, nofun⟩
    | ok page =>
      rcases page.isLast_or_link with hp | ⟨l, rfl⟩
      · refine ⟨[], .ok page, congrArg (· :: []) ha, ?_⟩
        rintro _ ⟨⟩
        exact hp
      · have hs := length_script_of_asked ha
        obtain ⟨links, x, h⟩ := ih _ (Nat.lt_of_lt_of_eq hs hl) _ l.url rfl
        exact ⟨l :: links, x, congrArg₂ List.cons ha h.answers, h.last⟩

/-- What becomes of the pages behind a page. More of them may be read than there are answers in the
script, so that none is left out. -/
theorem followPages_run {page : Page α} {s : Session} (h : Answered c row s.network url links x)
    (hp : page.next? = some url) (hs : s.network.script.length < pages) :
    ((c.followPages row pages page).run s).1 = gathered (page :: links.map Link.page) x ∧
      ((c.followPages row pages page).run s).2.network =
        s.network.after c.config (c.pageRequests url links) := by
  induction links generalizing url page s pages with
  | nil =>
    cases pages with
    | zero => cases hs
    | succ pages =>
      cases x with
      | error e => exact c.followPages_error row hp h.head pages
      | ok last =>
        obtain ⟨s', hn, hr⟩ := c.followPages_ok row hp h.head pages
        rw [hr, c.followPages_of_isLast row (h.last last rfl), List.map_nil, gathered_cons,
          gathered_nil_ok]
        exact ⟨rfl, hn⟩
  | cons l links ih =>
    cases pages with
    | zero => cases hs
    | succ pages =>
      obtain ⟨s', hn, hr⟩ := c.followPages_ok row hp h.head_link pages
      -- The page took an answer from the script, so the bound still exceeds what is left of it.
      have hl := length_script_of_asked h.head_link
      have ht := h.tail
      rw [← hn] at hl ht
      have hs' : s'.network.script.length < pages := by omega
      obtain ⟨ho, hn'⟩ := ih ht l.next?_page hs'
      rw [hr, pageRequests_cons, Network.after_cons, ← hn, List.map_cons, gathered_cons]
      exact ⟨congrArg (Except.map _) ho, hn'⟩

theorem queryAll_run {s : Session} (h : Answered c row s.network (c.askUrl "query" soql) links x) :
    ((c.queryAll row soql).run s).1 = gathered (links.map Link.page) x ∧
      ((c.queryAll row soql).run s).2.network =
        s.network.after c.config (c.pageRequests (c.askUrl "query" soql) links) := by
  rw [queryAll_eq]
  cases links with
  | nil =>
    obtain ⟨s', hn, hr⟩ := c.queryMore_run row h.head
    rw [hr]
    cases x with
    | error e => exact ⟨rfl, hn⟩
    | ok last =>
      dsimp only [Except.mapError]
      rw [c.followPages_of_isLast row (h.last last rfl), List.map_nil, gathered_nil_ok]
      exact ⟨rfl, hn⟩
  | cons l links =>
    obtain ⟨s', hn, hr⟩ := c.queryMore_run row h.head_link
    have ht := h.tail
    rw [← hn] at ht
    rw [hr, pageRequests_cons, Network.after_cons, ← hn]
    exact ht.followPages_run l.next?_page (Nat.lt_succ_self _)

end Answered

/-- How a query for all pages goes. Its requests are handed over one behind the other, and their
answers are pages with links, up to one that is a last page or an error. -/
structure ReadsPages (s : Session) (soql : String) : Prop where
  /-- All rows are given, in order, if the last page is reached. -/
  whole : ∀ (links : List (Link α)) (last : Page α), last.IsLast →
    c.answers (Page.decode row) (c.pageRequests (c.askUrl "query" soql) links) s.network =
      (links.map Link.page ++ [last]).map .ok →
    ((c.queryAll row soql).run s).1 = .ok ((links.map Link.page ++ [last]).flatMap Page.records) ∧
      ((c.queryAll row soql).run s).2.network.handed =
        s.network.handed ++ c.pageRequests (c.askUrl "query" soql) links ∧
      Network.Exchanges c.config (c.pageRequests (c.askUrl "query" soql) links) s.network
        ((c.queryAll row soql).run s).2.network
  /-- No rows are given if an answer fails, and no page is asked for behind it. -/
  failed : ∀ (links : List (Link α)) (e : Http.Error),
    c.answers (Page.decode row) (c.pageRequests (c.askUrl "query" soql) links) s.network =
      (links.map Link.page).map .ok ++ [.error e] →
    ((c.queryAll row soql).run s).1 = .error (.ofHttp e) ∧
      ((c.queryAll row soql).run s).2.network.handed =
        s.network.handed ++ c.pageRequests (c.askUrl "query" soql) links ∧
      Network.Exchanges c.config (c.pageRequests (c.askUrl "query" soql) links) s.network
        ((c.queryAll row soql).run s).2.network
  /-- A link may lead to no URL that can be asked. It is told why, and no answer is taken for it. -/
  unsent : ∀ (links : List (Link α)) (rs : List Request) (r : Request) (e : Http.Error),
    c.pageRequests (c.askUrl "query" soql) links = rs ++ [r] → r.prepared c.config = .error e →
    c.answers (Page.decode row) rs s.network = (links.map Link.page).map .ok →
    ((c.queryAll row soql).run s).1 = .error (.ofHttp e) ∧
      ((c.queryAll row soql).run s).2.network = (s.network.after c.config rs).hand r
  /-- However the network answers, the query ends in one of these ways. -/
  ends : ∃ links x, Answered c row s.network (c.askUrl "query" soql) links x

/-- In every session, a query for all pages asks for each page once, behind the link of the one
before, and gives the rows of all pages or the error of the first request or answer that fails. -/
theorem reads_all_pages (s : Session) (soql : String) : ReadsPages c row s soql where
  whole links last hl ha := by
    rw [List.map_append, List.map_map] at ha
    obtain ⟨ho, hn⟩ := Answered.queryAll_run ⟨ha, by rintro _ ⟨⟩; exact hl⟩
    rw [ho, hn]
    exact ⟨rfl, s.network.handed_after _ _, s.network.exchanges_after _ _⟩
  failed links e ha := by
    rw [List.map_map] at ha
    obtain ⟨ho, hn⟩ := Answered.queryAll_run ⟨ha, nofun⟩
    rw [ho, hn]
    exact ⟨rfl, s.network.handed_after _ _, s.network.exchanges_after _ _⟩
  unsent links rs r e hr he ha := by
    -- A request that cannot be sent is answered by what is wrong with it.
    have hx : c.answers (Page.decode row) (c.pageRequests (c.askUrl "query" soql) links) s.network =
        links.map (.ok ·.page) ++ [.error e] := by
      rw [hr, answers_append, ha, List.map_map]
      exact congrArg (_ ++ [·]) (asked_of_unprepared he _ _)
    obtain ⟨ho, hn⟩ := Answered.queryAll_run ⟨hx, nofun⟩
    rw [ho, hn, hr, Network.after_concat_of_unprepared he]
    exact ⟨rfl, rfl⟩
  ends := Answered.exists_of_network c row s.network _

/-- A session in which two pages are laid down, one with a link and one that is done. -/
def twoPages (link : String) : Session :=
  let pages := [
    "\x7b\"totalSize\":2,\"done\":false,\"nextRecordsUrl\":\"" ++ link
      ++ "\",\"records\":[true]\x7d",
    "\x7b\"totalSize\":2,\"done\":true,\"nextRecordsUrl\":\"/c\",\"records\":[false]\x7d"]
  let network : Network :=
    ⟨fun _ => true, pages.map fun page => .answer ⟨200, [], Text.utf8Bytes page.toList⟩, []⟩
  ⟨network, [], none⟩

def pagedOrg : Connection :=
  ⟨"http://org", "token", "62.0", {}⟩

def firstLink (link : String) : Link Bool :=
  ⟨⟨2, false, some link, [true]⟩, link, rfl, rfl⟩

def lastPage : Page Bool :=
  ⟨2, true, some "/c", [false]⟩

theorem twoPages_gives_all_rows :
    lastPage.IsLast ∧
      pagedOrg.answers (Page.decode .bool)
        (pagedOrg.pageRequests (pagedOrg.askUrl "query" "a") [firstLink "/b"])
        (twoPages "/b").network = [.ok (firstLink "/b").page, .ok lastPage] ∧
      ((pagedOrg.queryAll .bool "a").run (twoPages "/b")).1 = .ok [true, false] ∧
      ((pagedOrg.queryAll .bool "a").run (twoPages "/b")).2.network.handed =
        pagedOrg.pageRequests (pagedOrg.askUrl "query" "a") [firstLink "/b"] := by
  have ha : pagedOrg.answers (Page.decode .bool)
      (pagedOrg.pageRequests (pagedOrg.askUrl "query" "a") [firstLink "/b"])
      (twoPages "/b").network = [.ok (firstLink "/b").page, .ok lastPage] := by
    decide +kernel
  have hp := reads_all_pages pagedOrg .bool (twoPages "/b") "a"
  obtain ⟨hr, hn, -⟩ := hp.whole [firstLink "/b"] lastPage (.inl rfl) ha
  exact ⟨.inl rfl, ha, hr, hn⟩

/-- What stands in an answer of success, if it is a page. -/
def scriptedPage : Http.Conduct → Option (Page Bool)
  | .answer a =>
    ((Response.mk "" a.status a.headers a.body true).checked.toOption.bind
      fun r => (r.json (Page.decode .bool)).toOption)
  | _ => none

/-- Two pages are laid down, but the link of the first leads nowhere, so the second is not asked
for, and the rows of the first are not given. -/
theorem brokenLink_gives_no_rows :
    (twoPages "http://[").network.script.map scriptedPage =
        [some (firstLink "http://[").page, some lastPage] ∧
      ((pagedOrg.queryAll .bool "a").run (twoPages "http://[")).1 =
        .error (.ofHttp (.causedBy (.invalidUrl "invalid IPv6 address"))) ∧
      ((pagedOrg.queryAll .bool "a").run (twoPages "http://[")).2.network.sent.length = 1 ∧
      ((pagedOrg.queryAll .bool "a").run (twoPages "http://[")).2.network.script.length = 1 := by
  decide +kernel

end Connection

end OrgClient
