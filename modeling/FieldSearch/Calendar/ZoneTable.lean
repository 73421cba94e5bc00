import FieldSearch.Calendar.Zone

/-!
The zones that are supported. Only these 14 of the zones of the time zone database are kept here, and a
definition that names any other is refused, as if there were no such zone. What is proved of readings
does not rest on which zones these are: it holds for all whose changes are in order and late enough, and
whose clock is less than a day ahead or behind.

A row holds the seconds since the change before it and the number of the offset that begins; the first
row counts from `start`.
-/

namespace FieldSearch.Calendar.Zone

/-- The changes that rows describe, from a second on. -/
def changesFrom (offsets : List Int) : Int → List (Nat × Nat) → List (Int × Int)
  | _, [] => []
  | second, (wait, kind) :: rows =>
    (second + wait, offsets.getD kind 0) :: changesFrom offsets (second + wait) rows

/-- A zone that begins with the first of its offsets. -/
def ofRows (name : String) (offsets : List Int) (start : Int) (rows : List (Nat × Nat)) : Zone where
  name := name
  initial := offsets.headD 0
  changes := changesFrom offsets start rows

def utc : Zone :=
  ofRows "UTC" [0] 0 []

def berlin : Zone :=
  ofRows "Europe/Berlin" [3208, 3600, 7200, 10800] (-2422054408)
    [(0, 1), (728348008, 2), (13222800, 1), (17028000, 2), (13305600, 1), (18144000, 2),
      (13305600, 1), (679795200, 2), (81648000, 1), (12700800, 2), (16329600, 1), (15724800, 2),
      (15724800, 1), (15724800, 2), (4489200, 3), (10627200, 2), (4755600, 1), (12700800, 2),
      (15206400, 1), (15642000, 2), (3020400, 3), (4230000, 2), (8470800, 1), (16934400, 2),
      (14515200, 1), (16329600, 2), (15120000, 1), (962841600, 2), (15120000, 1), (15724800, 2),
      (15724800, 1), (15724800, 2), (15724800, 1), (15724800, 2), (15724800, 1), (15724800, 2),
      (16329600, 1), (15724800, 2), (15724800, 1), (15724800, 2), (15724800, 1), (15724800, 2),
      (15724800, 1), (15724800, 2), (15724800, 1), (15724800, 2), (15724800, 1), (15724800, 2),
      (16329600, 1), (15724800, 2), (15724800, 1), (15724800, 2), (15724800, 1), (15724800, 2),
      (15724800, 1), (15724800, 2), (15724800, 1), (15724800, 2), (15724800, 1), (16329600, 2),
      (18144000, 1), (13305600, 2), (18144000, 1), (13305600, 2), (18144000, 1), (13305600, 2),
      (18748800, 1), (12700800, 2), (18748800, 1), (12700800, 2), (18748800, 1), (13305600, 2),
      (18144000, 1), (13305600, 2), (18144000, 1), (13305600, 2), (18748800, 1), (12700800, 2),
      (18748800, 1), (12700800, 2), (18748800, 1), (12700800, 2), (18748800, 1), (13305600, 2),
      (18144000, 1), (13305600, 2), (18144000, 1), (13305600, 2), (18748800, 1), (12700800, 2),
      (18748800, 1), (12700800, 2), (18748800, 1), (13305600, 2), (18144000, 1), (13305600, 2),
      (18144000, 1), (13305600, 2), (18144000, 1), (13305600, 2), (18748800, 1), (12700800, 2),
      (18748800, 1), (12700800, 2), (18748800, 1), (13305600, 2), (18144000, 1), (13305600, 2),
      (18144000, 1), (13305600, 2), (18748800, 1), (12700800, 2), (18748800, 1), (12700800, 2),
      (18748800, 1), (13305600, 2), (18144000, 1), (13305600, 2), (18144000, 1), (13305600, 2),
      (18144000, 1), (13305600, 2), (18748800, 1), (12700800, 2), (18748800, 1), (12700800, 2),
      (18748800, 1), (13305600, 2), (18144000, 1), (13305600, 2), (18144000, 1), (13305600, 2),
      (18748800, 1), (12700800, 2), (18748800, 1), (12700800, 2), (18748800, 1), (12700800, 2),
      (18748800, 1), (13305600, 2), (18144000, 1), (13305600, 2), (18144000, 1), (13305600, 2),
      (18748800, 1), (12700800, 2), (18748800, 1), (12700800, 2), (18748800, 1), (13305600, 2),
      (18144000, 1), (13305600, 2), (18144000, 1), (13305600, 2), (18144000, 1), (13305600, 2),
      (18748800, 1), (12700800, 2), (18748800, 1), (12700800, 2), (18748800, 1), (13305600, 2),
      (18144000, 1), (13305600, 2), (18144000, 1), (13305600, 2), (18748800, 1), (12700800, 2),
      (18748800, 1), (12700800, 2), (18748800, 1), (13305600, 2), (18144000, 1), (13305600, 2),
      (18144000, 1), (13305600, 2), (18144000, 1), (13305600, 2), (18748800, 1), (12700800, 2),
      (18748800, 1), (12700800, 2), (18748800, 1), (13305600, 2), (18144000, 1), (13305600, 2),
      (18144000, 1), (13305600, 2), (18748800, 1), (12700800, 2), (18748800, 1), (12700800, 2),
      (18748800, 1), (12700800, 2), (18748800, 1), (13305600, 2), (18144000, 1), (13305600, 2),
      (18144000, 1), (13305600, 2), (18748800, 1), (12700800, 2), (18748800, 1), (12700800, 2),
      (18748800, 1), (13305600, 2), (18144000, 1), (13305600, 2), (18144000, 1), (13305600, 2),
      (18144000, 1), (13305600, 2), (18748800, 1), (12700800, 2), (18748800, 1), (12700800, 2),
      (18748800, 1), (13305600, 2), (18144000, 1), (13305600, 2), (18144000, 1), (13305600, 2),
      (18748800, 1), (12700800, 2), (18748800, 1), (12700800, 2), (18748800, 1), (13305600, 2),
      (18144000, 1), (13305600, 2), (18144000, 1), (13305600, 2), (18144000, 1), (13305600, 2),
      (18748800, 1), (12700800, 2), (18748800, 1), (12700800, 2), (18748800, 1), (13305600, 2),
      (18144000, 1), (13305600, 2), (18144000, 1), (13305600, 2), (18748800, 1), (12700800, 2),
      (18748800, 1), (12700800, 2), (18748800, 1), (12700800, 2), (18748800, 1), (13305600, 2),
      (18144000, 1), (13305600, 2), (18144000, 1), (13305600, 2), (18748800, 1), (12700800, 2),
      (18748800, 1), (12700800, 2), (18748800, 1), (13305600, 2), (18144000, 1), (13305600, 2),
      (18144000, 1), (13305600, 2), (18144000, 1)]

def amsterdam : Zone :=
  ofRows "Europe/Amsterdam" [1050, 0, 3600, 7200] (-2450995200)
    [(0, 1), (710640000, 2), (46652400, 3), (13219200, 2), (17028000, 3), (13305600, 2),
      (18144000, 3), (13305600, 2), (4874400, 1), (9547200, 2), (18748800, 1), (11491200, 2),
      (21772800, 1), (12268800, 2), (19440000, 1), (13046400, 2), (16934400, 1), (16934400, 2),
      (14515200, 1), (15120000, 2), (16329600, 1), (15724800, 2), (15724800, 1), (16934400, 2),
      (14515200, 1), (16329600, 2), (15120000, 1), (16934400, 2), (15130800, 1), (16934400, 2),
      (14515200, 1), (16329600, 2), (15120000, 1), (16934400, 2), (14515200, 1), (15724800, 2),
      (15724800, 1), (15120000, 2), (16934400, 1), (15724800, 2), (15724800, 1), (15120000, 2),
      (16329600, 1), (16934400, 2), (14515200, 1), (15724800, 2), (15724800, 1), (15120000, 2),
      (16329600, 1), (16934400, 2), (18748800, 1), (8467200, 2), (7344000, 3), (77410800, 2),
      (12700800, 3), (16329600, 2), (15724800, 3), (14428800, 2), (17020800, 3), (14428800, 2),
      (21168000, 3), (12182400, 2), (962150400, 3), (15120000, 2), (16329600, 3), (15724800, 2),
      (15724800, 3), (15724800, 2), (16329600, 3), (15120000, 2), (15724800, 3), (15724800, 2),
      (15724800, 3), (15724800, 2), (15724800, 3), (15724800, 2), (15724800, 3), (16329600, 2),
      (15724800, 3), (15724800, 2), (15724800, 3), (15724800, 2), (15724800, 3), (15724800, 2),
      (15724800, 3), (15724800, 2), (15724800, 3), (15724800, 2), (15724800, 3), (16329600, 2),
      (15724800, 3), (15724800, 2), (15724800, 3), (15724800, 2), (15724800, 3), (15724800, 2),
      (15724800, 3), (15724800, 2), (15724800, 3), (15724800, 2), (16329600, 3), (18144000, 2),
      (13305600, 3), (18144000, 2), (13305600, 3), (18144000, 2), (13305600, 3), (18748800, 2),
      (12700800, 3), (18748800, 2), (12700800, 3), (18748800, 2), (13305600, 3), (18144000, 2),
      (13305600, 3), (18144000, 2), (13305600, 3), (18748800, 2), (12700800, 3), (18748800, 2),
      (12700800, 3), (18748800, 2), (12700800, 3), (18748800, 2), (13305600, 3), (18144000, 2),
      (13305600, 3), (18144000, 2), (13305600, 3), (18748800, 2), (12700800, 3), (18748800, 2),
      (12700800, 3), (18748800, 2), (13305600, 3), (18144000, 2), (13305600, 3), (18144000, 2),
      (13305600, 3), (18144000, 2), (13305600, 3), (18748800, 2), (12700800, 3), (18748800, 2),
      (12700800, 3), (18748800, 2), (13305600, 3), (18144000, 2), (13305600, 3), (18144000, 2),
      (13305600, 3), (18748800, 2), (12700800, 3), (18748800, 2), (12700800, 3), (18748800, 2),
      (13305600, 3), (18144000, 2), (13305600, 3), (18144000, 2), (13305600, 3), (18144000, 2),
      (13305600, 3), (18748800, 2), (12700800, 3), (18748800, 2), (12700800, 3), (18748800, 2),
      (13305600, 3), (18144000, 2), (13305600, 3), (18144000, 2), (13305600, 3), (18748800, 2),
      (12700800, 3), (18748800, 2), (12700800, 3), (18748800, 2), (12700800, 3), (18748800, 2),
      (13305600, 3), (18144000, 2), (13305600, 3), (18144000, 2), (13305600, 3), (18748800, 2),
      (12700800, 3), (18748800, 2), (12700800, 3), (18748800, 2), (13305600, 3), (18144000, 2),
      (13305600, 3), (18144000, 2), (13305600, 3), (18144000, 2), (13305600, 3), (18748800, 2),
      (12700800, 3), (18748800, 2), (12700800, 3), (18748800, 2), (13305600, 3), (18144000, 2),
      (13305600, 3), (18144000, 2), (13305600, 3), (18748800, 2), (12700800, 3), (18748800, 2),
      (12700800, 3), (18748800, 2), (13305600, 3), (18144000, 2), (13305600, 3), (18144000, 2),
      (13305600, 3), (18144000, 2), (13305600, 3), (18748800, 2), (12700800, 3), (18748800, 2),
      (12700800, 3), (18748800, 2), (13305600, 3), (18144000, 2), (13305600, 3), (18144000, 2),
      (13305600, 3), (18748800, 2), (12700800, 3), (18748800, 2), (12700800, 3), (18748800, 2),
      (12700800, 3), (18748800, 2), (13305600, 3), (18144000, 2), (13305600, 3), (18144000, 2),
      (13305600, 3), (18748800, 2), (12700800, 3), (18748800, 2), (12700800, 3), (18748800, 2),
      (13305600, 3), (18144000, 2), (13305600, 3), (18144000, 2), (13305600, 3), (18144000, 2),
      (13305600, 3), (18748800, 2), (12700800, 3), (18748800, 2), (12700800, 3), (18748800, 2),
      (13305600, 3), (18144000, 2), (13305600, 3), (18144000, 2), (13305600, 3), (18748800, 2),
      (12700800, 3), (18748800, 2), (12700800, 3), (18748800, 2), (13305600, 3), (18144000, 2),
      (13305600, 3), (18144000, 2), (13305600, 3), (18144000, 2), (13305600, 3), (18748800, 2),
      (12700800, 3), (18748800, 2), (12700800, 3), (18748800, 2), (13305600, 3), (18144000, 2),
      (13305600, 3), (18144000, 2), (13305600, 3), (18748800, 2), (12700800, 3), (18748800, 2),
      (12700800, 3), (18748800, 2), (12700800, 3), (18748800, 2), (13305600, 3), (18144000, 2),
      (13305600, 3), (18144000, 2), (13305600, 3), (18748800, 2), (12700800, 3), (18748800, 2),
      (12700800, 3), (18748800, 2), (13305600, 3), (18144000, 2), (13305600, 3), (18144000, 2),
      (13305600, 3), (18144000, 2)]

def newYork : Zone :=
  ofRows "America/New_York" [-17762, -18000, -14400] (-2717650800)
    [(0, 1), (1084370400, 2), (18140400, 1), (13309200, 2), (18140400, 1), (13309200, 2),
      (18745200, 1), (15123600, 2), (13302000, 1), (18752400, 2), (12697200, 1), (18752400, 2),
      (13302000, 1), (18147600, 2), (13302000, 1), (18147600, 2), (13302000, 1), (18147600, 2),
      (13302000, 1), (18147600, 2), (13302000, 1), (18752400, 2), (13302000, 1), (18147600, 2),
      (13302000, 1), (18147600, 2), (13302000, 1), (18147600, 2), (13302000, 1), (18147600, 2),
      (13302000, 1), (18752400, 2), (12697200, 1), (18752400, 2), (13302000, 1), (18147600, 2),
      (13302000, 1), (18147600, 2), (13302000, 1), (18147600, 2), (13302000, 1), (18147600, 2),
      (13302000, 1), (18752400, 2), (12697200, 1), (18752400, 2), (13302000, 1), (18147600, 2),
      (13302000, 1), (11581200, 2), (114822000, 1), (18147600, 2), (13302000, 1), (18147600, 2),
      (13302000, 1), (18147600, 2), (13302000, 1), (18147600, 2), (13302000, 1), (18752400, 2),
      (12697200, 1), (18752400, 2), (13302000, 1), (18147600, 2), (13302000, 1), (18147600, 2),
      (13302000, 1), (18147600, 2), (13302000, 1), (18147600, 2), (16326000, 1), (15728400, 2),
      (15721200, 1), (15728400, 2), (15721200, 1), (15728400, 2), (15721200, 1), (15728400, 2),
      (15721200, 1), (15728400, 2), (16326000, 1), (15728400, 2), (15721200, 1), (15728400, 2),
      (15721200, 1), (15728400, 2), (15721200, 1), (15728400, 2), (15721200, 1), (15728400, 2),
      (16326000, 1), (15123600, 2), (16326000, 1), (15728400, 2), (15721200, 1), (15728400, 2),
      (15721200, 1), (15728400, 2), (15721200, 1), (15728400, 2), (15721200, 1), (15728400, 2),
      (16326000, 1), (15728400, 2), (15721200, 1), (15728400, 2), (15721200, 1), (6051600, 2),
      (25398000, 1), (10285200, 2), (21164400, 1), (15728400, 2), (16326000, 1), (15123600, 2),
      (16326000, 1), (15728400, 2), (15721200, 1), (15728400, 2), (15721200, 1), (15728400, 2),
      (15721200, 1), (15728400, 2), (15721200, 1), (15728400, 2), (16326000, 1), (15123600, 2),
      (16326000, 1), (15728400, 2), (15721200, 1), (15728400, 2), (15721200, 1), (15728400, 2),
      (15721200, 1), (13914000, 2), (17535600, 1), (13914000, 2), (18140400, 1), (13309200, 2),
      (18140400, 1), (13309200, 2), (18140400, 1), (13914000, 2), (17535600, 1), (13914000, 2),
      (17535600, 1), (13914000, 2), (18140400, 1), (13309200, 2), (18140400, 1), (13309200, 2),
      (18140400, 1), (13914000, 2), (17535600, 1), (13914000, 2), (17535600, 1), (13914000, 2),
      (17535600, 1), (13914000, 2), (18140400, 1), (13309200, 2), (18140400, 1), (13309200, 2),
      (18140400, 1), (13914000, 2), (17535600, 1), (13914000, 2), (17535600, 1), (13914000, 2),
      (18140400, 1), (13309200, 2), (18140400, 1), (13309200, 2), (18140400, 1), (11494800, 2),
      (20559600, 1), (10890000, 2), (20559600, 1), (10890000, 2), (20559600, 1), (11494800, 2),
      (20559600, 1), (10890000, 2), (20559600, 1), (10890000, 2), (20559600, 1), (10890000, 2),
      (20559600, 1), (10890000, 2), (20559600, 1), (10890000, 2), (20559600, 1), (11494800, 2),
      (20559600, 1), (10890000, 2), (20559600, 1), (10890000, 2), (20559600, 1), (10890000, 2),
      (20559600, 1), (10890000, 2), (20559600, 1), (11494800, 2), (20559600, 1), (10890000, 2),
      (20559600, 1), (10890000, 2), (20559600, 1), (10890000, 2), (20559600, 1), (10890000, 2),
      (20559600, 1), (10890000, 2), (20559600, 1), (11494800, 2), (20559600, 1), (10890000, 2),
      (20559600, 1), (10890000, 2), (20559600, 1), (10890000, 2), (20559600, 1), (10890000, 2),
      (20559600, 1), (11494800, 2), (20559600, 1), (10890000, 2), (20559600, 1), (10890000, 2),
      (20559600, 1), (10890000, 2), (20559600, 1), (10890000, 2), (20559600, 1), (10890000, 2),
      (20559600, 1), (11494800, 2), (20559600, 1), (10890000, 2), (20559600, 1), (10890000, 2),
      (20559600, 1), (10890000, 2), (20559600, 1), (10890000, 2), (20559600, 1), (10890000, 2),
      (20559600, 1), (11494800, 2), (20559600, 1), (10890000, 2), (20559600, 1), (10890000, 2),
      (20559600, 1), (10890000, 2), (20559600, 1), (10890000, 2), (20559600, 1), (11494800, 2),
      (20559600, 1), (10890000, 2), (20559600, 1), (10890000, 2), (20559600, 1), (10890000, 2),
      (20559600, 1), (10890000, 2), (20559600, 1), (10890000, 2), (20559600, 1), (11494800, 2),
      (20559600, 1), (10890000, 2), (20559600, 1), (10890000, 2), (20559600, 1), (10890000, 2),
      (20559600, 1), (10890000, 2), (20559600, 1), (11494800, 2), (20559600, 1), (10890000, 2),
      (20559600, 1), (10890000, 2), (20559600, 1), (10890000, 2), (20559600, 1), (10890000, 2),
      (20559600, 1), (10890000, 2), (20559600, 1), (11494800, 2), (20559600, 1), (10890000, 2),
      (20559600, 1), (10890000, 2), (20559600, 1), (10890000, 2), (20559600, 1), (10890000, 2),
      (20559600, 1), (10890000, 2), (20559600, 1), (11494800, 2), (20559600, 1), (10890000, 2),
      (20559600, 1), (10890000, 2), (20559600, 1), (10890000, 2), (20559600, 1), (10890000, 2),
      (20559600, 1), (11494800, 2), (20559600, 1), (10890000, 2), (20559600, 1), (10890000, 2),
      (20559600, 1), (10890000, 2), (20559600, 1), (10890000, 2), (20559600, 1), (10890000, 2),
      (20559600, 1), (11494800, 2), (20559600, 1), (10890000, 2), (20559600, 1), (10890000, 2),
      (20559600, 1), (10890000, 2), (20559600, 1), (10890000, 2), (20559600, 1), (11494800, 2),
      (20559600, 1), (10890000, 2), (20559600, 1), (10890000, 2), (20559600, 1), (10890000, 2),
      (20559600, 1), (10890000, 2), (20559600, 1), (10890000, 2), (20559600, 1), (11494800, 2),
      (20559600, 1), (10890000, 2), (20559600, 1), (10890000, 2), (20559600, 1), (10890000, 2),
      (20559600, 1), (10890000, 2), (20559600, 1), (10890000, 2), (20559600, 1)]

/-- Another name for the zone of New York. -/
def usEastern : Zone :=
  { newYork with name := "US/Eastern" }

def saoPaulo : Zone :=
  ofRows "America/Sao_Paulo" [-11188, -10800, -7200] (-1767214412)
    [(0, 1), (560256812, 2), (15595200, 1), (15987600, 2), (15548400, 1), (526006800, 2),
      (11750400, 1), (19785600, 2), (10450800, 1), (21085200, 2), (10537200, 1), (21085200, 2),
      (7772400, 1), (335926800, 2), (11228400, 1), (29034000, 2), (5094000, 1), (21171600, 2),
      (7772400, 1), (21171600, 2), (10364400, 1), (21171600, 2), (10450800, 1), (557715600, 2),
      (11487600, 1), (19357200, 2), (9673200, 1), (21862800, 2), (9068400, 1), (21776400, 2),
      (9068400, 1), (22381200, 2), (10278000, 1), (21776400, 2), (10278000, 1), (21171600, 2),
      (9673200, 1), (22381200, 2), (8463600, 1), (22381200, 2), (10882800, 1), (20566800, 2),
      (10882800, 1), (20566800, 2), (10278000, 1), (20566800, 2), (11487600, 1), (20048400, 2),
      (12610800, 1), (19357200, 2), (11487600, 1), (19357200, 2), (12697200, 1), (19357200, 2),
      (11487600, 1), (20566800, 2), (10882800, 1), (22381200, 2), (9068400, 1), (21171600, 2),
      (10278000, 1), (22554000, 2), (9500400, 1), (20566800, 2), (10882800, 1), (22381200, 2),
      (9673200, 1), (19962000, 2), (10882800, 1), (21171600, 2), (10278000, 1), (21171600, 2),
      (10882800, 1), (20566800, 2), (10882800, 1), (20566800, 2), (11487600, 1), (20566800, 2),
      (10278000, 1), (21171600, 2), (10278000, 1), (21171600, 2), (10882800, 1), (20566800, 2),
      (10882800, 1), (20566800, 2), (10882800, 1), (20566800, 2), (10882800, 1), (22381200, 2),
      (9068400, 1)]

def tokyo : Zone :=
  ofRows "Asia/Tokyo" [33539, 32400, 36000] (-2587712400)
    [(0, 1), (1903910400, 2), (11491200, 1), (17539200, 2), (13910400, 1), (20563200, 2),
      (10886400, 1), (20563200, 2), (10886400, 1)]

def kolkata : Zone :=
  ofRows "Asia/Kolkata" [21208, 21200, 19270, 19800, 23400] (-3645237208)
    [(0, 1), (489542408, 2), (1135989130, 3), (1128124270, 4), (19522800, 3), (9421200, 4),
      (98492400, 3)]

def kathmandu : Zone :=
  ofRows "Asia/Kathmandu" [20476, 19800, 20700] (-1577943676)
    [(0, 1), (2082845476, 2)]

def lordHowe : Zone :=
  ofRows "Australia/Lord_Howe" [38180, 36000, 37800, 41400, 39600] (-2364114980)
    [(0, 1), (2716331780, 2), (20568600, 3), (11487600, 2), (20566800, 3), (10882800, 2),
      (20566800, 3), (10882800, 2), (20566800, 3), (10882800, 2), (20566800, 4), (12094200, 2),
      (18750600, 4), (12699000, 2), (19355400, 4), (12699000, 2), (19355400, 4), (12094200, 2),
      (19355400, 4), (10884600, 2), (20565000, 4), (10884600, 2), (20565000, 4), (10884600, 2),
      (20565000, 4), (11489400, 2), (20565000, 4), (10884600, 2), (20565000, 4), (10884600, 2),
      (20565000, 4), (13303800, 2), (18145800, 4), (13303800, 2), (18145800, 4), (13303800, 2),
      (18145800, 4), (13303800, 2), (18750600, 4), (12699000, 2), (13307400, 4), (18142200, 2),
      (18750600, 4), (13303800, 2), (18145800, 4), (13303800, 2), (18145800, 4), (13303800, 2),
      (18750600, 4), (12699000, 2), (18750600, 4), (13303800, 2), (18145800, 4), (12699000, 2),
      (18750600, 4), (13908600, 2), (15726600, 4), (15723000, 2), (15726600, 4), (15723000, 2),
      (15726600, 4), (15723000, 2), (15726600, 4), (15723000, 2), (16331400, 4), (15723000, 2),
      (15726600, 4), (15723000, 2), (15726600, 4), (15723000, 2), (15726600, 4), (15723000, 2),
      (15726600, 4), (15723000, 2), (15726600, 4), (15723000, 2), (16331400, 4), (15723000, 2),
      (15726600, 4), (15723000, 2), (15726600, 4), (15723000, 2), (15726600, 4), (15723000, 2),
      (15726600, 4), (15723000, 2), (15726600, 4), (16327800, 2), (15726600, 4), (15723000, 2),
      (15726600, 4), (15723000, 2), (15726600, 4), (15723000, 2), (15726600, 4), (15723000, 2),
      (15726600, 4), (15723000, 2), (16331400, 4), (15723000, 2), (15726600, 4), (15723000, 2),
      (15726600, 4), (15723000, 2), (15726600, 4), (15723000, 2), (15726600, 4), (15723000, 2),
      (15726600, 4), (15723000, 2), (16331400, 4), (15723000, 2), (15726600, 4), (15723000, 2),
      (15726600, 4), (15723000, 2), (15726600, 4), (15723000, 2), (15726600, 4), (15723000, 2),
      (16331400, 4), (15723000, 2), (15726600, 4), (15723000, 2), (15726600, 4), (15723000, 2),
      (15726600, 4), (15723000, 2), (15726600, 4), (15723000, 2), (15726600, 4), (15723000, 2),
      (16331400, 4), (15723000, 2), (15726600, 4), (15723000, 2), (15726600, 4), (15723000, 2),
      (15726600, 4), (15723000, 2), (15726600, 4), (15723000, 2), (15726600, 4), (16327800, 2),
      (15726600, 4), (15723000, 2), (15726600, 4), (15723000, 2), (15726600, 4), (15723000, 2),
      (15726600, 4), (15723000, 2), (15726600, 4), (15723000, 2), (16331400, 4), (15723000, 2),
      (15726600, 4), (15723000, 2), (15726600, 4), (15723000, 2), (15726600, 4), (15723000, 2),
      (15726600, 4), (15723000, 2), (15726600, 4), (15723000, 2), (16331400, 4), (15723000, 2),
      (15726600, 4), (15723000, 2), (15726600, 4), (15723000, 2), (15726600, 4), (15723000, 2),
      (15726600, 4), (15723000, 2), (16331400, 4), (15723000, 2), (15726600, 4), (15723000, 2),
      (15726600, 4), (15723000, 2), (15726600, 4), (15723000, 2), (15726600, 4), (15723000, 2),
      (15726600, 4), (15723000, 2), (16331400, 4), (15723000, 2), (15726600, 4), (15723000, 2),
      (15726600, 4), (15723000, 2), (15726600, 4), (15723000, 2), (15726600, 4), (15723000, 2),
      (15726600, 4), (16327800, 2), (15726600, 4), (15723000, 2), (15726600, 4), (15723000, 2),
      (15726600, 4), (15723000, 2), (15726600, 4), (15723000, 2), (15726600, 4), (15723000, 2),
      (16331400, 4), (15723000, 2), (15726600, 4), (15723000, 2), (15726600, 4), (15723000, 2),
      (15726600, 4), (15723000, 2), (15726600, 4), (15723000, 2), (15726600, 4), (15723000, 2),
      (16331400, 4), (15723000, 2), (15726600, 4), (15723000, 2), (15726600, 4), (15723000, 2),
      (15726600, 4), (15723000, 2), (15726600, 4), (15723000, 2), (16331400, 4), (15723000, 2),
      (15726600, 4), (15723000, 2), (15726600, 4), (15723000, 2), (15726600, 4)]

def apia : Zone :=
  ofRows "Pacific/Apia" [45184, -41216, -41400, -39600, -36000, 50400, 46800] (-2445424384)
    [(0, 1), (583545600, 2), (1230768184, 3), (1916609400, 4), (16254000, 3), (15120000, 4),
      (8366400, 5), (7963200, 6), (15724800, 5), (16329600, 6), (15120000, 5), (16329600, 6),
      (15120000, 5), (16329600, 6), (15120000, 5), (16329600, 6), (15120000, 5), (16329600, 6),
      (15120000, 5), (16329600, 6), (15724800, 5), (16329600, 6), (15120000, 5), (16329600, 6),
      (15120000, 5), (16329600, 6)]

def kiritimati : Zone :=
  ofRows "Pacific/Kiritimati" [-37760, -38400, -36000, 50400] (-2177415040)
    [(0, 1), (2485037440, 2), (481245600, 3)]

def monrovia : Zone :=
  ofRows "Africa/Monrovia" [-2588, -2670, 0] (-1604359012)
    [(0, 1), (1667952082, 2)]

def fiveBehind : Zone :=
  ofRows "Etc/GMT+5" [-18000] 0 []

/-- The supported zones. The time zone database has more. -/
def all : List Zone :=
  [utc, berlin, amsterdam, newYork, usEastern, saoPaulo, tokyo, kolkata, kathmandu, lordHowe, apia,
    kiritimati, monrovia, fiveBehind]

/-- The supported zone with exactly this name. There is none for the names of other zones of the time
zone database. -/
def named? (name : String) : Option Zone :=
  all.find? fun zone => zone.name == name

end FieldSearch.Calendar.Zone
