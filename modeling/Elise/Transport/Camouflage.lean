/-
Elise/Transport/Camouflage.lean

The camouflage of a connection as HTTP (src/transport/tcp.rs).

The server reads the head of a request and looks at it; what came behind the head is read again
first (`poll_read`).  The head of the response goes out in front of the first bytes that are
written.

A call of a writing function is given the answers of the inner stream to it, one for each time
the function asks, without end.  The loops ask as long as something of the head is left, so they
take fuel; a call returns if it does so with some fuel.

The head of the response has a date (`format_rfc2822_date`), which is compared with the calendar.
Day, month, year and time are right.  The day of the week is not: the table begins with the day
of 1970-01-01 and the index is counted from a Sunday, so each day has the name of the one four
days later.
-/
import Elise.Lib.AssocMap
import Elise.Lib.ByteStream
import Elise.Lib.Calendar
import Elise.Lib.Lines
import Elise.Lib.Poll
import Elise.Lib.Text

namespace Elise

namespace Camouflage

open Text

/-! ### The request -/

structure TcpHttpRequestConfig where
  method : List Char
  path : List (List Char)
  headers : AssocMap (List Char) (List (List Char))

structure TcpHttpResponseConfig where
  version : List Char
  status : List Char
  reason : List Char
  headers : AssocMap (List Char) (List (List Char))

structure TcpTransportConfig where
  request : Option TcpHttpRequestConfig
  response : Option TcpHttpResponseConfig

def doubleCrlf : List UInt8 := [13, 10, 13, 10]

def maxHeaderLength : Nat := 8192

def resp400 : List UInt8 :=
  toUtf8 "HTTP/1.1 400 Bad Request\r\nConnection: close\r\nCache-Control: private\r\nContent-Length: 0\r\n\r\n".toList

def resp404 : List UInt8 :=
  toUtf8 "HTTP/1.1 404 Not Found\r\nConnection: close\r\nCache-Control: private\r\nContent-Length: 0\r\n\r\n".toList

/-- The headers up to the first empty line; of equal names the last one counts. -/
def readHeaders (lines : List (List Char)) : AssocMap (List Char) (List Char) :=
  (lines.takeWhile fun line => !line.isEmpty).foldl
    (fun headers line =>
      match splitOnce ':' line with
      | some (k, v) => headers.insert (toAsciiLowercase (trim k)) (trim v)
      | none => headers) ∅

/-- Whether one of the paths fits: the root alone, another one as a prefix. -/
def pathMatches (path : List Char) (expected : List Char) : Bool :=
  if expected = ['/'] then path = ['/'] || path.isEmpty else path = expected || expected.isPrefixOf path

/-- What is expected of a request; else the response to it. -/
def checkRequest (cfg : TcpHttpRequestConfig) (method path : List Char)
    (headers : AssocMap (List Char) (List Char)) : Except (List UInt8) Unit :=
  if !cfg.method.isEmpty && !eqIgnoreAsciiCase method cfg.method then .error resp400
  else if !cfg.path.isEmpty && !cfg.path.any (pathMatches path) then .error resp404
  else
    match (cfg.headers.get "Host".toList).or (cfg.headers.get "host".toList) with
    | some expectedHosts =>
        let clientHost := (headers.get "host".toList).getD []
        if !expectedHosts.isEmpty && !expectedHosts.any (eqIgnoreAsciiCase clientHost) then .error resp400
        else .ok ()
    | none => .ok ()

def validateHttpRequest (rawHeader : List UInt8) (expected : Option TcpHttpRequestConfig) :
    Except (List UInt8) Unit :=
  match fromUtf8 rawHeader with
  | none => .error resp400
  | some text =>
      match Lines.split '\r' '\n' text with
      | [] => .error resp400
      | requestLine :: lines =>
          if requestLine.isEmpty then .error resp400
          else
            match splitWhitespace requestLine with
            | method :: path :: _ :: _ =>
                match expected with
                | some cfg => checkRequest cfg method path (readHeaders lines)
                | none => .ok ()
            | _ => .error resp400

/-! ### The response -/

/-- A number with zeros in front, at least so wide. -/
def padded (width n : Nat) : List Char :=
  let digits := n.repr.toList
  List.replicate (width - digits.length) '0' ++ digits

def daysInYear (year : Nat) : Nat :=
  if (year % 4 = 0 ∧ year % 100 ≠ 0) ∨ year % 400 = 0 then 366 else 365

def yearLoop (daysRemaining year : Nat) : Nat × Nat :=
  if daysRemaining < daysInYear year then (daysRemaining, year)
  else yearLoop (daysRemaining - daysInYear year) (year + 1)
termination_by daysRemaining
decreasing_by
  rename_i h
  have hpos : 0 < daysInYear year := by
    rw [daysInYear]
    split <;> decide
  omega

def monthLoop : (lengths : List Nat) → (m daysRemaining : Nat) → Nat × Nat
  | [], _, daysRemaining => (0, daysRemaining)
  | len :: lengths, m, daysRemaining =>
      if daysRemaining < len then (m, daysRemaining) else monthLoop lengths (m + 1) (daysRemaining - len)

def dayNames : List (List Char) :=
  ["Thu".toList, "Fri".toList, "Sat".toList, "Sun".toList, "Mon".toList, "Tue".toList, "Wed".toList]

def monthNames : List (List Char) :=
  ["Jan".toList, "Feb".toList, "Mar".toList, "Apr".toList, "May".toList, "Jun".toList, "Jul".toList,
    "Aug".toList, "Sep".toList, "Oct".toList, "Nov".toList, "Dec".toList]

def formatRfc2822Date (secs : Nat) : List Char :=
  let dayOfWeek := dayNames.getD ((secs / 86400 + 4) % 7) []
  let timeOfDay := secs % 86400
  let (daysRemaining, year) := yearLoop (secs / 86400) 1970
  let february := if daysInYear year = 366 then 29 else 28
  let (month, daysRemaining) :=
    monthLoop [31, february, 31, 30, 31, 30, 31, 31, 30, 31, 30, 31] 0 daysRemaining
  dayOfWeek ++ ", ".toList ++ padded 2 (daysRemaining + 1) ++ " ".toList ++ monthNames.getD month [] ++
    " ".toList ++ padded 4 year ++ " ".toList ++ padded 2 (timeOfDay / 3600) ++ ":".toList ++
    padded 2 (timeOfDay % 3600 / 60) ++ ":".toList ++ padded 2 (timeOfDay % 60) ++ " GMT".toList

def crlf : List Char := ['\r', '\n']

/-- The head of the response; `nowSec` is the time of day. -/
def buildHttpResponseHeader (config : Option TcpHttpResponseConfig) (nowSec : Nat) : List UInt8 :=
  let (version, status, reason) :=
    match config with
    | some c => (c.version, c.status, c.reason)
    | none => ("1.1".toList, "200".toList, "OK".toList)
  let headers := (config.map fun c => c.headers.pairs).getD []
  let has := fun name : List Char => headers.any fun header => toAsciiLowercase header.1 = name
  toUtf8 ("HTTP/".toList ++ version ++ ' ' :: status ++ ' ' :: reason ++ crlf ++
    (headers.flatMap fun header =>
      header.1 ++ ": ".toList ++ ", ".toList.intercalate header.2 ++ crlf) ++
    (if has "content-type".toList then []
      else "Content-Type: application/octet-stream, video/mpeg".toList ++ crlf) ++
    (if has "connection".toList then [] else "Connection: keep-alive".toList ++ crlf) ++
    (if has "date".toList then [] else "Date: ".toList ++ formatRfc2822Date nowSec ++ crlf) ++ crlf)

/-! ### The handshake -/

/-- The stream of the server; `sent` is what the inner stream has been given. -/
structure HttpCamouflageStream where
  inner : ByteStream
  unreadBuf : List UInt8
  unreadCursor : Nat
  pendingResponse : Option (List UInt8)
  pendingRespCursor : Nat
  sent : List UInt8

/-- Why a handshake fails, and what is written then. -/
inductive HandshakeError where
  | eof
  | exceeded
  | rejected (response : List UInt8)

/-- The loop that reads the head: where it ends, and what has been read. -/
def headLoop (inner : ByteStream) (header : List UInt8) :
    Except HandshakeError (Nat × List UInt8 × ByteStream) :=
  if _hlong : header.length < maxHeaderLength then
    let read := inner.read 1024
    if _heof : read.1 = [] then .error .eof
    else
      match Lines.find doubleCrlf (header ++ read.1) with
      | some pos => .ok (pos, header ++ read.1, read.2)
      | none => headLoop read.2 (header ++ read.1)
  else .error .exceeded
termination_by maxHeaderLength - header.length
decreasing_by
  have hpos : 0 < (inner.read 1024).1.length := List.length_pos_iff.mpr _heof
  rw [List.length_append]
  omega

def serverHandshake (inner : ByteStream) (config : TcpTransportConfig) (nowSec : Nat) :
    Except HandshakeError HttpCamouflageStream :=
  match headLoop inner [] with
  | .error e => .error e
  | .ok (endingIdx, headerBytes, inner) =>
      match validateHttpRequest (headerBytes.take (endingIdx + 4)) config.request with
      | .error errResp => .error (.rejected errResp)
      | .ok () =>
          .ok {
            inner
            unreadBuf := headerBytes.drop (endingIdx + 4)
            unreadCursor := 0
            pendingResponse := some (buildHttpResponseHeader config.response nowSec)
            pendingRespCursor := 0
            sent := [] }

namespace HttpCamouflageStream

/-! ### Reading -/

/-- A call of `poll_read` with room for `cap` bytes; `ready` says whether the inner
stream has an answer for it. -/
structure ReadCall where
  cap : Nat
  ready : Bool

def pollRead (s : HttpCamouflageStream) (call : ReadCall) : List UInt8 × HttpCamouflageStream :=
  if s.unreadCursor < s.unreadBuf.length then
    let toRead := min (s.unreadBuf.length - s.unreadCursor) call.cap
    ((s.unreadBuf.drop s.unreadCursor).take toRead, { s with unreadCursor := s.unreadCursor + toRead })
  else if call.ready then
    let read := s.inner.read call.cap
    (read.1, { s with inner := read.2 })
  else ([], s)

def pollReads (s : HttpCamouflageStream) : List ReadCall → List UInt8 × HttpCamouflageStream
  | [] => ([], s)
  | call :: calls =>
      let (chunk, s) := s.pollRead call
      let (chunks, s) := s.pollReads calls
      (chunk ++ chunks, s)

/-! ### Writing -/

/-- The inner stream takes up to `n` of the bytes. -/
def give (s : HttpCamouflageStream) (bytes : List UInt8) (n : Nat) : HttpCamouflageStream :=
  { s with sent := s.sent ++ bytes.take n }

/-- The loop in `poll_write` and `poll_flush`.  The `k`-th time that the inner stream is
asked to take bytes, it gives the answer `answers k`. -/
def drainHead (answers : Nat → Poll.Wrote) :
    (fuel k : Nat) → HttpCamouflageStream → Option (Poll.Result Nat × HttpCamouflageStream)
  | 0, _, _ => none
  | fuel + 1, k, s =>
      match s.pendingResponse with
      | none => some (.ready k, s)
      | some resp =>
          if s.pendingRespCursor < resp.length then
            let toWrite := resp.drop s.pendingRespCursor
            match answers k with
            | .some n =>
                drainHead answers fuel (k + 1)
                  { s.give toWrite n with pendingRespCursor := s.pendingRespCursor + min n toWrite.length }
            | .error => some (.error, s)
            | .pending => some (.pending, s)
          else some (.ready k, { s with pendingResponse := none })

def pollWrite (fuel : Nat) (s : HttpCamouflageStream) (buf : List UInt8) (answers : Nat → Poll.Wrote) :
    Option (Poll.Result Nat × HttpCamouflageStream) :=
  (drainHead answers fuel 0 s).map fun (drained, s) =>
    match drained with
    | .ready k =>
        match answers k with
        | .some n => (.ready (min n buf.length), s.give buf n)
        | .error => (.error, s)
        | .pending => (.pending, s)
    | .error => (.error, s)
    | .pending => (.pending, s)

def pollFlush (fuel : Nat) (s : HttpCamouflageStream) (answers : Nat → Poll.Wrote)
    (flushed : Poll.Result Unit) : Option (Poll.Result Unit × HttpCamouflageStream) :=
  (drainHead answers fuel 0 s).map fun (drained, s) =>
    match drained with
    | .ready _ => (flushed, s)
    | .error => (.error, s)
    | .pending => (.pending, s)

def pollShutdown (s : HttpCamouflageStream) (down : Poll.Result Unit) :
    Poll.Result Unit × HttpCamouflageStream := (down, s)

end HttpCamouflageStream

open Calendar

/-- The text for a day of the week, a date and an instant of it. -/
def dateText (weekday : List Char) (d : Date) (secs : Nat) : List Char :=
  weekday ++ ", ".toList ++ padded 2 d.day ++ " ".toList ++ monthNames.getD (d.month - 1) [] ++ " ".toList ++
    padded 4 d.year ++ " ".toList ++ padded 2 (secs / 3600 % 24) ++ ":".toList ++ padded 2 (secs / 60 % 60) ++
    ":".toList ++ padded 2 (secs % 60) ++ " GMT".toList

/-- The date of an instant. -/
def OnDay (secs : Nat) (d : Date) : Prop := d.number = epoch.number + secs / 86400

/-- A text that says when it is. -/
def RightDate (secs : Nat) (text : List Char) : Prop :=
  ∃ d, OnDay secs d ∧ text = dateText (dayName d.number).toList d secs

theorem daysInYear_eq (year : Nat) : daysInYear year = yearLength year := by
  have hleap : Leap year ↔ (year % 4 = 0 ∧ year % 100 ≠ 0) ∨ year % 400 = 0 := by
    show year % 4 = 0 ∧ (year % 100 ≠ 0 ∨ year % 400 = 0) ↔ _
    omega
  simp only [daysInYear, yearLength, hleap]

/-- The loop over the years keeps the day and ends in its year. -/
theorem yearLoop_spec {days year : Nat} (h : 1 ≤ year) :
    (yearLoop days year).1 < yearLength (yearLoop days year).2 ∧ year ≤ (yearLoop days year).2 ∧
      yearStart (yearLoop days year).2 + (yearLoop days year).1 = yearStart year + days := by
  fun_induction yearLoop days year with
  | case1 days year hlt =>
      rw [daysInYear_eq] at hlt
      exact ⟨hlt, Nat.le_refl year, rfl⟩
  | case2 days year hlt ih =>
      have hlength := daysInYear_eq year
      obtain ⟨hday, hyear, hsum⟩ := ih (by omega)
      rw [yearStart_succ h] at hsum
      exact ⟨hday, by omega, by omega⟩

/-- The loop over the months ends in the month of the day. -/
theorem monthLoop_spec {lengths : List Nat} (m : Nat) {days : Nat} (h : days < lengths.sum) :
    ∃ k < lengths.length, (monthLoop lengths m days).1 = m + k ∧
      (monthLoop lengths m days).2 < lengths.getD k 0 ∧
      (lengths.take k).sum + (monthLoop lengths m days).2 = days := by
  induction lengths generalizing m days with
  | nil => exact absurd h (Nat.not_lt_zero days)
  | cons len lengths ih =>
      rw [List.sum_cons] at h
      rw [monthLoop]
      split
      next hlt => exact ⟨0, Nat.zero_lt_succ _, rfl, hlt, by simp⟩
      next hge =>
        obtain ⟨k, hk, hmonth, hday, hsum⟩ := ih (m + 1) (show days - len < lengths.sum by omega)
        refine ⟨k + 1, Nat.succ_lt_succ hk, by omega, hday, ?_⟩
        rw [List.take_succ_cons, List.sum_cons]
        omega

/-- The table of the months. -/
def monthLengths (year : Nat) : List Nat := (List.range 12).map fun k => monthLength year (k + 1)

theorem monthLengths_eq (year : Nat) :
    [31, if daysInYear year = 366 then 29 else 28, 31, 30, 31, 30, 31, 31, 30, 31, 30, 31] = monthLengths year := by
  have hfebruary : (if daysInYear year = 366 then 29 else 28) = monthLength year 2 := by
    rw [daysInYear_eq, yearLength, monthLength, if_pos rfl]
    split <;> rfl
  rw [hfebruary]
  rfl

theorem sum_take_monthLengths (year : Nat) {k : Nat} (hk : k ≤ 12) :
    ((monthLengths year).take k).sum = monthStart year (k + 1) := by
  rw [monthLengths, ← List.map_take, List.take_range, Nat.min_eq_left hk]
  induction k with
  | zero => rfl
  | succ k ih =>
      rw [List.range_succ, List.map_append, List.sum_append, ih (by omega),
        monthStart_succ (show 1 ≤ k + 1 by omega)]
      simp

/-- The index is four days ahead. -/
theorem dayNames_eq (n : Nat) : dayNames.getD ((n + 4) % 7) [] = (dayName (719162 + n + 4)).toList := by
  have hcode : (n + 4) % 7 = (n % 7 + 4) % 7 := by omega
  have hcalendar : (719162 + n + 4) % 7 = n % 7 := by omega
  have hrest : n % 7 < 7 := Nat.mod_lt n (by omega)
  rw [dayName, hcode, hcalendar]
  generalize n % 7 = r at hrest
  revert r
  decide

theorem dayName_later (n : Nat) : (dayName n).toList.length = 3 ∧ (dayName (n + 4)).toList.length = 3 ∧
    (dayName (n + 4)).toList ≠ (dayName n).toList := by
  have hlater : (n + 4) % 7 = (n % 7 + 4) % 7 := by omega
  have hrest : n % 7 < 7 := Nat.mod_lt n (by omega)
  rw [dayName, dayName, hlater]
  generalize n % 7 = r at hrest
  revert r
  decide

/-- What is printed: the date of the day, with the day of the week four days later. -/
theorem formatRfc2822Date_eq (secs : Nat) : ∃ d, OnDay secs d ∧
    formatRfc2822Date secs = dateText (dayName (d.number + 4)).toList d secs := by
  obtain ⟨hday, hyear, hsum⟩ := @yearLoop_spec (secs / 86400) _ (show 1 ≤ 1970 by omega)
  rw [formatRfc2822Date]
  generalize yearLoop (secs / 86400) 1970 = state at *
  obtain ⟨days, year⟩ := state
  change yearStart year + days = yearStart 1970 + _ at hsum
  have htotal : (monthLengths year).sum = yearLength year := by
    rw [← monthStart_end, ← sum_take_monthLengths year (Nat.le_refl 12)]
    rfl
  obtain ⟨k, hk, hmonth, hday', hsum'⟩ := monthLoop_spec 0 (show days < (monthLengths year).sum by rwa [htotal])
  have hlength : (monthLengths year).length = 12 := rfl
  have hget : (monthLengths year).getD k 0 = monthLength year (k + 1) := by
    rw [monthLengths, List.getD_eq_getElem?_getD, List.getElem?_map, List.getElem?_range (by omega)]
    rfl
  rw [hget] at hday'
  rw [sum_take_monthLengths year (by omega)] at hsum'
  simp only [monthLengths_eq]
  generalize monthLoop (monthLengths year) 0 days = state at *
  obtain ⟨month, day⟩ := state
  obtain rfl : month = k := by rw [← Nat.zero_add k]; exact hmonth
  have hnumber : yearStart year + monthStart year (month + 1) + day = 719162 + secs / 86400 := by
    have hepoch : yearStart 1970 = 719162 := by decide
    omega
  refine ⟨⟨year, month + 1, day + 1, by omega, by omega, by omega, by omega, by omega⟩, hnumber, ?_⟩
  have hname := dayNames_eq (secs / 86400)
  rw [← hnumber] at hname
  rw [dateText, hname, show secs % 86400 / 3600 = secs / 3600 % 24 by omega,
    show secs % 86400 % 3600 / 60 = secs / 60 % 60 by omega, show secs % 86400 % 60 = secs % 60 by omega]
  rfl

theorem not_rightDate (secs : Nat) : ¬RightDate secs (formatRfc2822Date secs) := by
  rintro ⟨d', hd', htext'⟩
  obtain ⟨d, hd, htext⟩ := formatRfc2822Date_eq secs
  obtain rfl := Date.number_inj (hd.trans hd'.symm)
  rw [htext, dateText, dateText] at htext'
  simp only [List.append_assoc] at htext'
  obtain ⟨hlength, hlength', hne⟩ := dayName_later d.number
  exact hne (List.append_inj htext' (hlength'.trans hlength.symm)).1

/-- No date that is printed is right: the day of the week is another one, and nothing else. -/
theorem formatRfc2822Date_wrong {secs : Nat} (h : secs < 253402300800) :
    ¬RightDate secs (formatRfc2822Date secs) ∧ ∃ d, OnDay secs d ∧ d.year ≤ 9999 ∧
      formatRfc2822Date secs = dateText (dayName (d.number + 4)).toList d secs := by
  obtain ⟨d, hd, htext⟩ := formatRfc2822Date_eq secs
  refine ⟨not_rightDate secs, d, hd, ?_, htext⟩
  have hyear : yearStart 10000 = 719162 + 2932897 := by decide
  have hepoch : epoch.number = 719162 := by decide
  by_contra hlate
  have hmono := yearStart_mono (by omega) (show 10000 ≤ d.year by omega)
  have hnumber : yearStart d.year ≤ d.number := by
    rw [Date.number]
    omega
  rw [OnDay] at hd
  omega

/-- 31 December 1999, 23:59:59 -/
theorem formatRfc2822Date_wrong_1999 : ¬RightDate 946684799 (formatRfc2822Date 946684799) ∧
    ∃ d, OnDay 946684799 d ∧ d.year ≤ 9999 ∧
      formatRfc2822Date 946684799 = dateText (dayName (d.number + 4)).toList d 946684799 :=
  formatRfc2822Date_wrong (by decide)

/-- The first instant, which was on a Thursday. -/
theorem formatRfc2822Date_epoch : OnDay 0 epoch ∧
    dateText (dayName epoch.number).toList epoch 0 = "Thu, 01 Jan 1970 00:00:00 GMT".toList ∧
    formatRfc2822Date 0 = "Mon, 01 Jan 1970 00:00:00 GMT".toList ∧ ¬RightDate 0 (formatRfc2822Date 0) := by
  have hloop : yearLoop (0 / 86400) 1970 = (0, 1970) := by
    rw [yearLoop]
    rfl
  refine ⟨rfl, by decide +kernel, ?_, not_rightDate 0⟩
  rw [formatRfc2822Date, hloop]
  decide +kernel

end Camouflage

end Elise
