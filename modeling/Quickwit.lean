import Quickwit.Search.Proto
import Quickwit.Search.FooterCache
import Quickwit.Search.Warmup
import Quickwit.Search.SingleSplit
import Quickwit.Search.Leaf
import Quickwit.Search.Liveness
import Quickwit.Indexing.Source
