import PcpSpeed.Bytes
import PcpSpeed.Speed.Types
import PcpSpeed.Speed.Units
import PcpSpeed.Speed.Metric
import PcpSpeed.Mmvdump.Format
import PcpSpeed.Narrowing
import PcpSpeed.Mmvdump.Goroutines
import PcpSpeed.Mmvdump.Components
import PcpSpeed.Mmvdump.Interleavings
import PcpSpeed.Mmvdump.Dump
import PcpSpeed.Speed.SharedMetric
import PcpSpeed.Mmvdump.Errors
import PcpSpeed.Mmvdump.Frame
import PcpSpeed.Mmvdump.Maps
